import Delegation.Proofs.Entries
import Delegation.Proofs.Registry
/-!
# Handles that a registry refuses

A registry accepts the handles that it issued itself. `Registry.enrol` registers
a class step by step on a registry that is changed in place, where a step that
fails leaves what the steps before it did. The handle is looked at before the
class is given a registration and before a name is published, so a refusal
leaves nothing behind, and otherwise the steps add up to `Registry.register`.
-/

namespace Delegation

namespace Registry

section Refused

variable {r : Registry} {h : ScopeHandle}

/-- A handle that another registry issued is refused, whatever place it names. -/
theorem slot_of_foreign (hforeign : h.registry ≠ r.id) :
    r.slot h = .error (.unknownScope h.index) :=
  if_neg fun hboth => hforeign hboth.1

/-- A refused handle finds no scope. -/
theorem scope?_of_refused {e : RegistryError} (hslot : r.slot h = .error e) :
    r.scope? h = none := by
  rw [scope?, hslot]

/-- A call by a refused handle runs nothing. -/
theorem callVia_of_refused {e : RegistryError} (hslot : r.slot h = .error e) (run : Runner)
    (w : World) (name : String) (a : Arguments) :
    r.callVia run w h name a = (w, .error (.registry e)) := by
  rw [callVia, hslot]

end Refused

/-- The registry with a registration of a class, an empty one if there was none. -/
def withRegistration (r : Registry) (c : ClassId) : Registry :=
  { r with registrations := r.registrations.insertIfNew c ⟨∅, []⟩ }

/-- Publishes a name of a registered class in the scope at a place. -/
def publishAt (w : World) (c : ClassId) (k : Nat) (r : Registry) (name : String) : Registry :=
  match r.registration? c, r.scopes[k]? with
  | some reg, some s =>
    let done := s.publish w c name reg.exposed
    { r with
      scopes := r.scopes.set k done.2
      registrations := r.registrations.insert c { reg with exposed := done.1 } }
  | _, _ => r

/-- Adds a handle to the registration of a class unless it is there. -/
def addHandle (r : Registry) (c : ClassId) (h : ScopeHandle) : Registry :=
  match r.registration? c with
  | some reg =>
    { r with
      registrations := r.registrations.insert c
        { reg with scopes := if h ∈ reg.scopes then reg.scopes else reg.scopes ++ [h] } }
  | none => r

/-- Registers a class step by step: the handle is looked at, the class gets a registration, its
public names are published one after the other, and the handle is added. -/
def enrol (r : Registry) (w : World) (c : ClassId) (h : ScopeHandle) :
    Registry × Except RegistryError Unit :=
  match r.slot h with
  | .error e => (r, .error e)
  | .ok k =>
    let published := (r.publicNames w c).foldl (publishAt w c k) (r.withRegistration c)
    (published.addHandle c h, .ok ())

/-- A class that has a registration is registered as it was, and another one as nothing. -/
theorem registration?_withRegistration (r : Registry) (c : ClassId) :
    (r.withRegistration c).registration? c = some ((r.registration? c).getD ⟨∅, []⟩) :=
  Entries.getElem?_insertIfNew_self r.registrations c _

/-- Publishing names one after the other in place publishes them all in the scope and counts them
all in the registration. -/
theorem foldl_publishAt (w : World) {c : ClassId} {k : Nat} (names : List String) {r : Registry}
    {reg : Registration} {s : Scope} (hreg : r.registration? c = some reg)
    (hs : r.scopes[k]? = some s) :
    names.foldl (publishAt w c k) r =
      { r with
        scopes := r.scopes.set k (s.publishAll w c names reg.exposed).2
        registrations := r.registrations.insert c
          { reg with exposed := (s.publishAll w c names reg.exposed).1 } } := by
  have hk : k < r.scopes.length := (List.getElem?_eq_some_iff.1 hs).1
  -- what the first name leaves of the registration and the scope is what the others start from
  induction names generalizing r reg s with
  | nil =>
    have hscopes : r.scopes.set k s = r.scopes := by
      rw [← (List.getElem?_eq_some_iff.1 hs).2, List.set_getElem_self]
    have hregistrations : r.registrations.insert c reg = r.registrations :=
      Entries.insert_of_getElem? hreg
    simp only [List.foldl_nil, Scope.publishAll, hscopes, hregistrations]
  | cons n names ih =>
    let done := s.publish w c n reg.exposed
    have hone : publishAt w c k r n =
        { r with
          scopes := r.scopes.set k done.2
          registrations := r.registrations.insert c { reg with exposed := done.1 } } := by
      rw [publishAt, hreg, hs]
    have hreg' : (publishAt w c k r n).registration? c = some { reg with exposed := done.1 } := by
      rw [hone, registration?, Std.ExtTreeMap.getElem?_insert_self]
    have hs' : (publishAt w c k r n).scopes[k]? = some done.2 := by
      rw [hone, List.getElem?_set_self hk]
    have hk' : k < (publishAt w c k r n).scopes.length := (List.getElem?_eq_some_iff.1 hs').1
    have hall : s.publishAll w c (n :: names) reg.exposed =
        done.2.publishAll w c names done.1 := rfl
    rw [List.foldl_cons, ih hreg' hs' hk', hone, hall]
    simp only [List.set_set, Entries.insert_insert]

/-- A handle is added to what is known of its class. -/
theorem addHandle_eq {r : Registry} {c : ClassId} {reg : Registration}
    (hreg : r.registration? c = some reg) (h : ScopeHandle) : r.addHandle c h =
      { r with
        registrations := r.registrations.insert c
          { reg with scopes := if h ∈ reg.scopes then reg.scopes else reg.scopes ++ [h] } } := by
  rw [addHandle, hreg]

/-- A refused handle leaves nothing behind, not even a registration. -/
theorem enrol_of_refused {r : Registry} {h : ScopeHandle} {e : RegistryError}
    (hslot : r.slot h = .error e) (w : World) (c : ClassId) : r.enrol w c h = (r, .error e) := by
  rw [enrol, hslot]

/-- Registering step by step ends with the registry that registering gives. -/
theorem enrol_of_register {r r' : Registry} {w : World} {c : ClassId} {h : ScopeHandle}
    (e : r.register w c h = .ok r') : r.enrol w c h = (r', .ok ()) := by
  obtain ⟨hid, hk⟩ := slot_of_register e
  have hslot : r.slot h = .ok h.index := if_pos ⟨hid, hk⟩
  obtain ⟨reg, hreg⟩ : ∃ reg, reg = (r.registration? c).getD ⟨∅, []⟩ := ⟨_, rfl⟩
  let s := r.scopes[h.index]
  let done := s.publishAll w c (r.publicNames w c) reg.exposed
  have hfirst : (r.withRegistration c).registration? c = some reg :=
    hreg ▸ registration?_withRegistration r c
  have hs : (r.withRegistration c).scopes[h.index]? = some s := List.getElem?_eq_getElem hk
  let published := (r.publicNames w c).foldl (publishAt w c h.index) (r.withRegistration c)
  have hpublished : published =
      { r with
        scopes := r.scopes.set h.index done.2
        registrations := (r.withRegistration c).registrations.insert c
          { reg with exposed := done.1 } } :=
    foldl_publishAt w (r.publicNames w c) hfirst hs
  have hlast : published.registration? c = some { reg with exposed := done.1 } := by
    rw [hpublished, registration?, Std.ExtTreeMap.getElem?_insert_self]
  have hadded : published.addHandle c h = r' := by
    have hupdate : updateScope (Scope.publishAll w c (r.publicNames w c)) (reg.exposed, r.scopes)
        h = (done.1, r.scopes.set h.index done.2) := by
      rw [updateScope, List.getElem?_eq_getElem hk]
    rw [register_eq_ok e, ← hreg, addHandle_eq hlast, hpublished]
    simp only [hupdate, withRegistration, Entries.insert_insert, Entries.insert_insertIfNew]
  rw [enrol, hslot, ← hadded]

/-- A class that is not registered has been given a handle that was refused. -/
theorem slot_of_register_error {r : Registry} {w : World} {c : ClassId} {h : ScopeHandle}
    {e : RegistryError} (hregister : r.register w c h = .error e) : r.slot h = .error e := by
  unfold register at hregister
  cases hslot : r.slot h with
  | error e' =>
    rw [hslot] at hregister
    exact congrArg Except.error (Except.error.inj hregister)
  | ok k =>
    rw [hslot] at hregister
    cases hregister

/-- Registering in place and registering agree: they refuse the same handles, and where they do
not, they end with the same registry. -/
theorem enrol_eq (r : Registry) (w : World) (c : ClassId) (h : ScopeHandle) :
    r.enrol w c h =
      match r.register w c h with
      | .ok r' => (r', .ok ())
      | .error e => (r, .error e) := by
  cases hregister : r.register w c h with
  | ok r' => exact enrol_of_register hregister
  | error e => exact enrol_of_refused (slot_of_register_error hregister) w c

end Registry

end Delegation
