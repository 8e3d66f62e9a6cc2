import Mathlib.Logic.Relation
import Delegation.Proofs.Foreign
import Delegation.Proofs.Republishing
/-!
# Several registries

A realm is a world with any number of registries that were created one after
the other. A counter gives each registry the number that its handles carry. The
registries go on in any order, each by steps of its own. A registry keeps its
number and the labels of its scopes, to which new ones are added at the end, so
a handle finds the scope it was issued for in every later realm. As long as the
counter gives no number twice, no other registry accepts the handle.
-/

namespace Delegation

/-- What a scope is known by for ever: its handle and its name. -/
def Scope.label (s : Scope) : ScopeHandle × String := (s.id, s.name)

/-- What keeps the frame of a scope keeps its label. -/
theorem Scope.label_of_frame {s s' : Scope} (h : s'.frame = s.frame) : s'.label = s.label :=
  Prod.ext (congrArg (fun f => f.1) h) (congrArg (fun f => f.2.1) h)

/-- Another active instance keeps the label. -/
theorem Scope.label_activate (s : Scope) (i : Option InstanceId) : (s.activate i).label = s.label :=
  rfl

/-- A change that is made in some scopes and keeps their labels keeps all labels. -/
theorem Scope.map_label_ite {b : Prop} [Decidable b] {f : Scope → Scope}
    (hf : ∀ s, (f s).label = s.label) (old : Option Scope) :
    (if b then old.map f else old).map label = old.map label := by
  split
  · rw [Option.map_map]
    exact congrArg (Option.map · old) (funext hf)
  · rfl

namespace Registry

/-- The labels of the scopes in the order of creation. -/
def labels (r : Registry) : List (ScopeHandle × String) := r.scopes.map Scope.label

variable {r r' : Registry} {w : World}

/-- The label at a place is that of the scope there. -/
theorem getElem?_labels (r : Registry) (k : Nat) : r.labels[k]? = r.scopes[k]?.map Scope.label :=
  List.getElem?_map

/-- The labels are the same if they are the same place by place. -/
theorem labels_eq (h : ∀ k : Nat, r'.scopes[k]?.map Scope.label = r.scopes[k]?.map Scope.label) :
    r'.labels = r.labels :=
  List.ext_getElem? fun k => by rw [getElem?_labels, getElem?_labels, h]

/-- A new scope adds its label at the end. -/
theorem labels_createScope (r : Registry) (name : String) :
    (r.createScope name).1.labels = r.labels ++ [((r.createScope name).2, name)] :=
  List.map_append

/-- Registering a class keeps the labels. -/
theorem labels_register {c : ClassId} {h : ScopeHandle} (e : r.register w c h = .ok r') :
    r'.labels = r.labels := labels_eq fun k => by
  rw [getElem?_scopes_register e]
  exact Scope.map_label_ite (fun s => Scope.label_of_frame (Scope.frame_foldl_place w c _ s)) _

/-- Being told of a member keeps the labels. -/
theorem labels_notifyIn (r : Registry) (order : List (ClassId × Registration)) (w : World)
    (c : ClassId) (name : String) : (r.notifyIn order w c name).labels = r.labels :=
  labels_eq fun k => by
    have hframe := frame_notifyIn r order w c name k
    have hlabel : Scope.label = (fun f => (f.1, f.2.1)) ∘ Scope.frame := rfl
    rw [hlabel, ← Option.map_map, ← Option.map_map, hframe]

/-- Attaching an instance keeps the labels. -/
theorem labels_attach (r : Registry) (w : World) (i : InstanceId) :
    (r.attach w i).labels = r.labels := by
  cases hfound : r.registrationOf? w i with
  | none => rw [attach_eq, hfound]
  | some e =>
    refine labels_eq fun k => ?_
    rw [getElem?_scopes_attach hfound]
    refine Scope.map_label_ite (fun s => ?_) _
    have hframe := Scope.frame_foldl_place w e.1 (r.publicNames w e.1) (s.activate (some i))
    exact (Scope.label_of_frame hframe).trans (Scope.label_activate s _)

/-- Detaching an instance keeps the labels. -/
theorem labels_detach (r : Registry) (w : World) (i : InstanceId) :
    (r.detach w i).labels = r.labels := by
  cases hfound : r.registrationOf? w i with
  | none => rw [detach_eq, hfound]
  | some e =>
    refine labels_eq fun k => ?_
    rw [getElem?_scopes_detach hfound]
    refine Scope.map_label_ite (fun s => ?_) _
    have hframe := Scope.frame_foldl_unbind e.2.exposed.toList (s.activate none)
    exact (Scope.label_of_frame hframe).trans (Scope.label_activate s _)

/-- A registry later on: it issues the same handles, and all its scopes are still there. -/
structure Continues (r r' : Registry) : Prop where
  /-- The registry keeps its number. -/
  id : r'.id = r.id
  /-- Labels are added at the end only. -/
  labels : r.labels <+: r'.labels

/-- A registry continues itself. -/
theorem Continues.refl (r : Registry) : Continues r r := ⟨rfl, List.prefix_refl _⟩

/-- A registry with the same number and the same labels is one later on. -/
theorem Continues.of_labels (hid : r'.id = r.id) (hlabels : r'.labels = r.labels) :
    Continues r r' := ⟨hid, hlabels ▸ List.prefix_refl _⟩

/-- A registry continues what it continues by steps. -/
theorem Continues.trans {r'' : Registry} (h : Continues r r') (h' : Continues r' r'') :
    Continues r r'' := ⟨h'.id.trans h.id, h.labels.trans h'.labels⟩

/-- A handle that finds a scope finds it for ever. -/
theorem Continues.scope? (h : Continues r r') {handle : ScopeHandle} {s : Scope}
    (hs : r.scope? handle = some s) : ∃ s', r'.scope? handle = some s' ∧ s'.label = s.label := by
  obtain ⟨hid, hplace⟩ := scope?_eq_some.1 hs
  obtain ⟨added, hadded⟩ := h.labels
  have hlabel : r.labels[handle.index]? = some s.label := by
    rw [getElem?_labels, hplace, Option.map_some]
  have hlabel' : r'.labels[handle.index]? = some s.label := by
    rw [← hadded, List.getElem?_append_left (List.getElem?_eq_some_iff.1 hlabel).1, hlabel]
  rw [getElem?_labels] at hlabel'
  obtain ⟨s', hs', hsame⟩ := Option.map_eq_some_iff.1 hlabel'
  exact ⟨s', scope?_eq_some.2 ⟨hid.trans h.id.symm, hs'⟩, hsame⟩

end Registry

/-- A registry continues in every step of a run. -/
theorem Stage.Step.continues {licence : Licence} {st st' : Stage} (next : Step licence st st') :
    st.registry.Continues st'.registry := by
  cases next with
  | change h => exact .refl _
  | call run h name a body => exact .refl _
  | createScope name =>
    -- the only step that adds a label
    exact ⟨rfl, Registry.labels_createScope _ name ▸ List.prefix_append _ _⟩
  | register known accepted =>
    exact .of_labels (Registry.frame_register accepted).1 (Registry.labels_register accepted)
  | notify each c name =>
    exact .of_labels (Registry.layout_notifyIn each _ c name).id
      (Registry.labels_notifyIn _ _ _ c name)
  | addMember each c name m =>
    exact .of_labels (Registry.layout_notifyIn each _ c name).id
      (Registry.labels_notifyIn _ _ _ c name)
  | attach i =>
    exact .of_labels (Registry.layout_attach _ _ i).id (Registry.labels_attach _ _ i)
  | detach i =>
    exact .of_labels (Registry.layout_detach _ _ i).id (Registry.labels_detach _ _ i)

/-- A world and the registries that were created in it. -/
structure Realm where
  /-- The world. -/
  world : World
  /-- The registries in the order of creation. -/
  registries : List Registry
  /-- The number of the registry that is created next. -/
  counter : UInt64

namespace Realm

/-- Nothing at all. -/
def start : Realm := ⟨.empty, [], Registry.firstNumber⟩

/-- The realm with one more registry, the last one. -/
def opened (m : Realm) (hiddenMark : String) : Realm :=
  let done := Registry.create m.counter hiddenMark
  { m with registries := m.registries ++ [done.1], counter := done.2 }

/-- The realm with the world and one of the registries replaced. -/
def put (m : Realm) (k : Nat) (w : World) (r : Registry) : Realm :=
  { m with world := w, registries := m.registries.set k r }

/-- A scope is created in one of the registries. -/
def createScope? (m : Realm) (k : Nat) (name : String) : Option (Realm × ScopeHandle) :=
  m.registries[k]?.map fun r =>
    let done := r.createScope name
    (m.put k m.world done.1, done.2)

/-- One of the registries is asked for a scope. -/
def scope? (m : Realm) (k : Nat) (h : ScopeHandle) : Option Scope :=
  m.registries[k]?.bind (·.scope? h)

/-- One of the registries is asked to register a class. -/
def register? (m : Realm) (k : Nat) (c : ClassId) (h : ScopeHandle) :
    Option (Realm × Except RegistryError Unit) :=
  m.registries[k]?.map fun r =>
    let done := r.enrol m.world c h
    (m.put k m.world done.1, done.2)

/-- A call goes through one of the registries. -/
def call? (run : Runner) (m : Realm) (k : Nat) (h : ScopeHandle) (name : String)
    (a : Arguments) : Option (Realm × Except Failure Value) :=
  m.registries[k]?.map fun r =>
    let done := r.callVia run m.world h name a
    (m.put k done.1 r, done.2)

/-- One step of a realm. -/
inductive Step (m : Realm) : Realm → Prop where
  /-- Other code does something to the world. -/
  | change {w : World} (h : World.Change (fun _ => True) m.world w) : Step m { m with world := w }
  /-- A registry is created. -/
  | opened (hiddenMark : String) : Step m (m.opened hiddenMark)
  /-- One of the registries goes on. -/
  | act {k : Nat} {r : Registry} {st : Stage} (place : m.registries[k]? = some r)
      (next : Stage.Step .free ⟨m.world, r⟩ st) : Step m (m.put k st.world st.registry)

/-- What a realm can become, step by step. -/
def Later : Realm → Realm → Prop := Relation.ReflTransGen Step

/-- What can become of nothing at all. -/
def Reachable (m : Realm) : Prop := Later start m

variable {m m' : Realm} {k : Nat} {r : Registry}

/-- Replacing a registry by itself changes nothing. -/
theorem put_self (hr : m.registries[k]? = some r) : m.put k m.world r = m := by
  have hsame : m.registries.set k r = m.registries := by
    rw [← (List.getElem?_eq_some_iff.1 hr).2, List.set_getElem_self]
  rw [put, hsame]

/-- The registry at a place after one was replaced. -/
theorem registries_put (hr : m.registries[k]? = some r) (w : World) (r' : Registry) (j : Nat) :
    (m.put k w r').registries[j]? = if j = k then some r' else m.registries[j]? := by
  have hk : k < m.registries.length := (List.getElem?_eq_some_iff.1 hr).1
  by_cases hj : j = k
  · rw [if_pos hj, hj, put, List.getElem?_set_self hk]
  · rw [if_neg hj, put, List.getElem?_set_ne (Ne.symm hj)]

/-- Every registry continues in a step, whichever registry makes it. -/
theorem Step.continues (next : Step m m') (hr : m.registries[k]? = some r) :
    ∃ r', m'.registries[k]? = some r' ∧ r.Continues r' := by
  cases next with
  | change h => exact ⟨r, hr, .refl r⟩
  | opened hiddenMark =>
    refine ⟨r, ?_, .refl r⟩
    rw [Realm.opened, List.getElem?_append_left (List.getElem?_eq_some_iff.1 hr).1, hr]
  | @act j q st place next =>
    -- the registry that acts goes on by a step of its own, and the others stay
    rw [registries_put place]
    by_cases hk : k = j
    · subst hk
      obtain rfl : q = r := Option.some.inj (place.symm.trans hr)
      exact ⟨st.registry, if_pos rfl, next.continues⟩
    · exact ⟨r, (if_neg hk).trans hr, .refl r⟩

/-- Every registry continues in a later realm. -/
theorem Later.continues (later : Later m m') (hr : m.registries[k]? = some r) :
    ∃ r', m'.registries[k]? = some r' ∧ r.Continues r' := by
  induction later with
  | refl => exact ⟨r, hr, .refl r⟩
  | tail before next ih =>
    obtain ⟨r₁, hr₁, hbefore⟩ := ih
    obtain ⟨r₂, hr₂, hnext⟩ := next.continues hr₁
    exact ⟨r₂, hr₂, hbefore.trans hnext⟩

/-- The registries have the numbers that the counter gave them. -/
structure Numbered (m : Realm) : Prop where
  /-- The counter has gone on by one for each registry. -/
  counter : m.counter = .ofNat (m.registries.length + 1)
  /-- The first registry has number one, and so on. -/
  id : ∀ (k : Nat) r, m.registries[k]? = some r → r.id = (UInt64.ofNat (k + 1)).toNat

/-- A step keeps the numbers and gives a new registry the next one. -/
theorem Step.numbered (next : Step m m') (h : m.Numbered) : m'.Numbered := by
  cases next with
  | change hchange => exact ⟨h.counter, h.id⟩
  | opened hiddenMark =>
    constructor
    · have hlength : (m.opened hiddenMark).registries.length = m.registries.length + 1 := by
        rw [Realm.opened, List.length_append, List.length_singleton]
      have hcounter : (m.opened hiddenMark).counter = m.counter + 1 := rfl
      rw [hcounter, hlength, h.counter, UInt64.ofNat_add (m.registries.length + 1) 1]
      rfl
    · intro k r hr
      rcases getElem?_concat hr with hold | ⟨rfl, rfl⟩
      · exact h.id k r hold
      · exact congrArg UInt64.toNat h.counter
  | @act j q st place next =>
    constructor
    · rw [put, List.length_set]
      exact h.counter
    · intro k r hr
      rw [registries_put place] at hr
      split at hr
      · rename_i hk
        obtain rfl : st.registry = r := Option.some.inj hr
        exact hk ▸ next.continues.id.trans (h.id j q place)
      · exact h.id k r hr

/-- All registries of a run have the numbers that the counter gave them. -/
theorem Reachable.numbered (reach : Reachable m) : m.Numbered := by
  induction reach with
  | refl => exact ⟨rfl, fun k r hr => by simp [start] at hr⟩
  | tail before next ih => exact next.numbered ih

/-- Registries have different numbers as long as there are not more of them than numbers. -/
theorem Numbered.id_ne (h : m.Numbered) (few : m.registries.length ≤ UInt64.size) {j : Nat}
    {q : Registry} (hr : m.registries[k]? = some r) (hq : m.registries[j]? = some q)
    (hne : k ≠ j) : r.id ≠ q.id := by
  have hk : k < m.registries.length := (List.getElem?_eq_some_iff.1 hr).1
  have hj : j < m.registries.length := (List.getElem?_eq_some_iff.1 hq).1
  have hsize : UInt64.size = 18446744073709551616 := rfl
  -- the last number of all is zero, and no other registry has that one
  rw [h.id k r hr, h.id j q hq, UInt64.toNat_ofNat', UInt64.toNat_ofNat']
  omega

/-- Creating a scope in one of the registries is a step, and the handle finds the new scope. -/
theorem createScope?_eq_some {name : String} {h : ScopeHandle}
    (created : m.createScope? k name = some (m', h)) : Step m m' ∧
      ∃ r, m'.registries[k]? = some r ∧ r.scope? h = some (.empty h name) := by
  obtain ⟨r, hr, hdone⟩ := Option.map_eq_some_iff.1 created
  obtain ⟨rfl, rfl⟩ := Prod.mk.inj hdone
  refine ⟨.act hr (.createScope name), (r.createScope name).1, ?_, r.scope?_createScope name⟩
  rw [registries_put hr, if_pos rfl]

/-- A realm goes on when one of its registries is asked to register a declared class, whether it
does or not. -/
theorem Later.of_register? {c : ClassId} {h : ScopeHandle} {answer : Except RegistryError Unit}
    (known : m.world.hierarchy.Knows c) (asked : m.register? k c h = some (m', answer)) :
    Later m m' := by
  obtain ⟨r, hr, hdone⟩ := Option.map_eq_some_iff.1 asked
  obtain ⟨rfl, -⟩ := Prod.mk.inj hdone
  rw [Registry.enrol_eq]
  cases accepted : r.register m.world c h with
  | ok r' => exact .single (.act hr (.register known accepted))
  | error e =>
    rw [put_self hr]
    exact .refl

/-- A call through one of the registries is a step. -/
theorem Step.of_call? {h : ScopeHandle} {name : String} {a : Arguments}
    {answer : Except Failure Value}
    (called : m.call? (World.run m.world.depth) k h name a = some (m', answer)) : Step m m' := by
  obtain ⟨r, hr, hdone⟩ := Option.map_eq_some_iff.1 called
  obtain ⟨rfl, -⟩ := Prod.mk.inj hdone
  exact .act hr (Stage.Step.of_call m.world r h name a)

/-- A realm goes on by whatever other code does to the world. -/
theorem Later.of_evolves {w : World} (h : World.Evolves (fun _ _ => True) m.world w) :
    Later m { m with world := w } := by
  induction h with
  | refl => exact .refl
  | step before change ih => exact ih.tail (.change change)

/-- One of the registries does not know a handle: it finds no scope by it, and to whatever else it
is asked to do with it the answer is an error, and nothing at all changes. -/
structure Refuses (m : Realm) (k : Nat) (h : ScopeHandle) : Prop where
  /-- No scope is found. -/
  scope : m.scope? k h = none
  /-- No class is registered. -/
  register : ∀ c, m.register? k c h = some (m, .error (.unknownScope h.index))
  /-- No method runs. -/
  call : ∀ run name a,
    m.call? run k h name a = some (m, .error (.registry (.unknownScope h.index)))

/-- A registry does not know handles with the number of another one. -/
theorem refuses_of_foreign (hr : m.registries[k]? = some r) {h : ScopeHandle}
    (hforeign : h.registry ≠ r.id) : m.Refuses k h := by
  have hslot : r.slot h = .error (.unknownScope h.index) := Registry.slot_of_foreign hforeign
  have hsame : m.put k m.world r = m := put_self hr
  refine ⟨?scope, fun c => ?register, fun run name a => ?call⟩
  case scope =>
    rw [Realm.scope?, hr, Option.bind_some, Registry.scope?_of_refused hslot]
  case register =>
    rw [register?, hr, Option.map_some, Registry.enrol_of_refused hslot]
    simp only [hsame]
  case call =>
    rw [call?, hr, Option.map_some, Registry.callVia_of_refused hslot]
    simp only [hsame]

/-- In every run of any number of registries, a handle that one of them issued for a scope finds
that scope there in every later realm, in its place, under its name and with this handle. As long
as there are not more registries than numbers, no other registry, older or newer, knows the handle,
whatever scopes it has itself. -/
theorem handle_stays_with_registry {m m' final : Realm} {j : Nat} {name : String}
    {h : ScopeHandle} (reach : Reachable m) (created : m.createScope? j name = some (m', h))
    (later : Later m' final) (few : final.registries.length ≤ UInt64.size) :
    m'.scope? j h = some (.empty h name) ∧
    (∃ r s, final.registries[j]? = some r ∧ r.slot h = .ok h.index ∧ r.scope? h = some s ∧
      s.id = h ∧ s.name = name) ∧
    ∀ k, k ≠ j → k < final.registries.length → final.Refuses k h := by
  obtain ⟨hstep, r, hr, hfound⟩ := createScope?_eq_some created
  obtain ⟨r', hr', hcontinues⟩ := later.continues hr
  obtain ⟨s, hs, hlabel⟩ := hcontinues.scope? hfound
  obtain ⟨hid, hplace⟩ := Registry.scope?_eq_some.1 hs
  have hlt : h.index < r'.scopes.length := (List.getElem?_eq_some_iff.1 hplace).1
  have hslot : r'.slot h = .ok h.index := if_pos ⟨hid, hlt⟩
  obtain ⟨hsame, hname⟩ := Prod.mk.inj hlabel
  refine ⟨?issued, ⟨r', s, hr', hslot, hs, hsame, hname⟩, ?others⟩
  case issued => rw [Realm.scope?, hr, Option.bind_some, hfound]
  case others =>
    intro k hk hlength
    have hreach : Reachable final := (Relation.ReflTransGen.tail reach hstep).trans later
    have hnumbered : final.Numbered := hreach.numbered
    have hq : final.registries[k]? = some final.registries[k] := List.getElem?_eq_getElem hlength
    have hforeign : h.registry ≠ final.registries[k].id :=
      hid ▸ (hnumbered.id_ne few hq hr' hk).symm
    exact refuses_of_foreign hq hforeign

/-- Two registries in the sample world. -/
def sample : Realm :=
  { (start.opened Registry.usualMark).opened Registry.usualMark with world := Stage.sampleWorld }

/-- The handle of the first scope of the first registry. -/
def firstHandle : ScopeHandle := ⟨1, 0⟩

/-- The handle of the first scope of the second registry. -/
def secondHandle : ScopeHandle := ⟨2, 0⟩

/-- That realm after a scope was created in the first registry. -/
def sampleCreated : Realm := ((sample.createScope? 0 "tools").map (·.1)).getD sample

/-- That realm after a scope was created in the second registry as well. -/
def sampleBeside : Realm := ((sampleCreated.createScope? 1 "camp").map (·.1)).getD sampleCreated

/-- That realm after the class was registered into the scope of the second registry. -/
def sampleRegistered : Realm :=
  ((sampleBeside.register? 1 0 secondHandle).map (·.1)).getD sampleBeside

/-- That realm after a call through the second registry. -/
def sampleCalled : Realm :=
  ((sampleRegistered.call? (World.run sampleRegistered.world.depth) 1 secondHandle "welcome"
    ⟨[], ∅⟩).map (·.1)).getD sampleRegistered

/-- The two registries are those of a run. -/
theorem sample_reachable : Reachable sample := by
  have hopened : Reachable ((start.opened Registry.usualMark).opened Registry.usualMark) :=
    .tail (.single (.opened _)) (.opened _)
  exact hopened.trans (Later.of_evolves (Stage.sampleWorld_evolves _))

/-- Both scopes are the first of their registries. The second registry has its own scope in the
place that the handle of the first one names, and refuses the handle. -/
theorem handle_stays_with_registry_sample :
    Reachable sample ∧
      sample.createScope? 0 "tools" = some (sampleCreated, firstHandle) ∧
      Later sampleCreated sampleCalled ∧
      sampleCalled.registries.length = 2 ∧
      (sampleCalled.scope? 1 secondHandle).map Scope.label = some (secondHandle, "camp") ∧
      (∃ r s, sampleCalled.registries[0]? = some r ∧ r.slot firstHandle = .ok 0 ∧
        r.scope? firstHandle = some s ∧ s.id = firstHandle ∧ s.name = "tools") ∧
      sampleCalled.Refuses 1 firstHandle := by
  have hcreated : sample.createScope? 0 "tools" = some (sampleCreated, firstHandle) := rfl
  have hbeside : sampleCreated.createScope? 1 "camp" = some (sampleBeside, secondHandle) := rfl
  have hregistered : sampleBeside.register? 1 0 secondHandle = some (sampleRegistered, .ok ()) :=
    rfl
  have hknown : sampleBeside.world.hierarchy.Knows 0 := Nat.zero_lt_one
  obtain ⟨answer, hcalled⟩ : ∃ answer, sampleRegistered.call?
      (World.run sampleRegistered.world.depth) 1 secondHandle "welcome" ⟨[], ∅⟩ =
        some (sampleCalled, answer) := ⟨_, rfl⟩
  have hbesideLater : Later sampleCreated sampleBeside := .single (createScope?_eq_some hbeside).1
  have hregisteredLater : Later sampleCreated sampleRegistered :=
    hbesideLater.trans (Later.of_register? hknown hregistered)
  have hlater : Later sampleCreated sampleCalled := hregisteredLater.tail (Step.of_call? hcalled)
  have hlength : sampleCalled.registries.length = 2 := rfl
  have hfew : sampleCalled.registries.length ≤ UInt64.size := by
    rw [hlength]
    decide
  have hcamp : (sampleCalled.scope? 1 secondHandle).map Scope.label =
      some (secondHandle, "camp") := rfl
  obtain ⟨-, hfound, hothers⟩ :=
    handle_stays_with_registry sample_reachable hcreated hlater hfew
  exact ⟨sample_reachable, hcreated, hlater, hlength, hcamp, hfound,
    hothers 1 (by decide) (by rw [hlength]; decide)⟩

end Realm

end Delegation
