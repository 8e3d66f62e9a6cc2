import Delegation.Proofs.Hierarchy
import Delegation.Proxy.Registry
/-!
# What publishing does to a scope

A scope is described by its entries: for every name the delegate and the value
that stand under it. Publishing a name of a class changes the entry of that
name alone, to one that depends on what the name means for the class, on the
active instance and, for an attribute without a value to bind, on what was
bound before. Publishing several names is the same name by name, whatever
their order, and what becomes of the exposed names is independent of the
scope.
-/

namespace Delegation

namespace Scope

/-- What stands under a name: a delegate, a value, neither or both. -/
def entry (s : Scope) (n : String) : Option Delegate × Option Value := (s.delegate? n, s.get? n)

/-- A new scope has nothing under any name. -/
@[simp] theorem entry_empty (id : ScopeHandle) (name n : String) :
    (empty id name).entry n = (none, none) := by
  simp [entry, empty, delegate?, get?]

/-- What publishing and unbinding keep of a scope: its handle, its name and its active instance. -/
def frame (s : Scope) : ScopeHandle × String × Option InstanceId := (s.id, s.name, s.active)

/-- What several changes make of a scope that each keep the frame has the same frame. -/
theorem frame_foldl {α : Type} {f : Scope → α → Scope} (hf : ∀ s x, (f s x).frame = s.frame)
    (xs : List α) (s : Scope) : (xs.foldl f s).frame = s.frame := by
  induction xs generalizing s with
  | nil => rfl
  | cons x xs ih => rw [List.foldl_cons, ih, hf]

/-- Scopes with the same frame and the same entries are the same. -/
theorem ext_entry {s t : Scope} (hframe : s.frame = t.frame)
    (h : ∀ n, s.entry n = t.entry n) : s = t := by
  obtain ⟨id, name, delegates, bindings, active⟩ := s
  obtain ⟨id', name', delegates', bindings', active'⟩ := t
  cases hframe
  have hd : delegates = delegates' := Std.ExtTreeMap.ext_getElem? fun n =>
    (Prod.ext_iff.1 (h n)).1
  have hv : bindings = bindings' := Std.ExtTreeMap.ext_getElem? fun n =>
    (Prod.ext_iff.1 (h n)).2
  rw [hd, hv]

/-- Making an instance active that is active already changes nothing. -/
theorem activate_eq_self {s : Scope} {active : Option InstanceId} (h : s.active = active) :
    s.activate active = s := by
  rw [← h]
  rfl

/-- Uninstalling a delegate takes it from its name alone. -/
theorem entry_uninstall (s : Scope) (n k : String) :
    (s.uninstall n).entry k = if k = n then (none, s.get? n) else s.entry k := by
  simp only [entry, uninstall, delegate?, get?]
  rw [Std.ExtTreeMap.getElem?_erase]
  by_cases h : k = n
  · simp [h]
  · simp [h, Ne.symm h]

/-- Unbinding a value takes it from its name alone. -/
theorem entry_unbind (s : Scope) (n k : String) :
    (s.unbind n).entry k = if k = n then (s.delegate? n, none) else s.entry k := by
  simp only [entry, unbind, delegate?, get?]
  rw [Std.ExtTreeMap.getElem?_erase]
  by_cases h : k = n
  · simp [h]
  · simp [h, Ne.symm h]

/-- Unbinding several names keeps the frame. -/
theorem frame_foldl_unbind (names : List String) (s : Scope) :
    (names.foldl unbind s).frame = s.frame := by
  have hunbind : ∀ (s : Scope) n, (s.unbind n).frame = s.frame := fun _ _ => rfl
  exact frame_foldl hunbind names s

/-- Unbinding several names keeps the active instance. -/
@[simp] theorem active_foldl_unbind (names : List String) (s : Scope) :
    (names.foldl unbind s).active = s.active :=
  congrArg (fun f => f.2.2) (frame_foldl_unbind names s)

/-- Unbinding several names keeps the delegates. -/
theorem delegate?_foldl_unbind (names : List String) (s : Scope) (k : String) :
    (names.foldl unbind s).delegate? k = s.delegate? k := by
  induction names generalizing s with
  | nil => rfl
  | cons n names ih => exact ih (s.unbind n)

/-- Unbinding several names takes the values from these names alone. -/
theorem entry_foldl_unbind (names : List String) (s : Scope) (k : String) :
    (names.foldl unbind s).entry k = if k ∈ names then (s.delegate? k, none) else s.entry k := by
  induction names generalizing s with
  | nil => simp
  | cons n names ih =>
    rw [List.foldl_cons, ih, entry_unbind]
    have hd : (s.unbind n).delegate? k = s.delegate? k := rfl
    by_cases hn : k = n
    · subst hn
      simp [hd]
    · simp [hd, hn]

/-- An installed delegate is all that stands under its name. -/
theorem entry_install (s : Scope) (d : Delegate) (k : String) :
    (s.install d).entry k = if k = d.name then (some d, none) else s.entry k := by
  rw [entry, delegate?_install, get?_install]
  split <;> rfl

/-- A bound value is all that stands under its name. -/
theorem entry_bind (s : Scope) (n : String) (v : Value) (k : String) :
    (s.bind n v).entry k = if k = n then (none, some v) else s.entry k := by
  rw [entry, delegate?_bind, get?_bind]
  split <;> rfl

end Scope

/-- The value of an attribute that an active instance of exactly a class has. -/
def World.shown? (w : World) (c : ClassId) (active : Option InstanceId) (n : String) :
    Option Value := do
  let i ← active
  if w.classOf? i = some c then w.attribute? i n else none

/-- What stands under a name after it was published for a class. -/
def World.published (w : World) (c : ClassId) (active : Option InstanceId) (n : String)
    (old : Option Delegate × Option Value) : Option Delegate × Option Value :=
  match w.hierarchy.lookup? c n with
  | some (.method m) => (some (.ofMethod (w.hierarchy.name c) n m), none)
  | some (.attribute _) => (none, (w.shown? c active n).or old.2)
  | none => old

section Published

variable {w : World} {c : ClassId} {n : String}

/-- A name without a meaning is not published. -/
theorem World.published_of_none (h : w.hierarchy.lookup? c n = none) (active : Option InstanceId)
    (old : Option Delegate × Option Value) : w.published c active n old = old := by
  simp [published, h]

/-- A method is published as its delegate. -/
theorem World.published_of_method {m : Method} (h : w.hierarchy.lookup? c n = some (.method m))
    (active : Option InstanceId) (old : Option Delegate × Option Value) :
    w.published c active n old = (some (.ofMethod (w.hierarchy.name c) n m), none) := by
  simp [published, h]

/-- An attribute is published as the value shown, if there is one. -/
theorem World.published_of_attribute {v : Value}
    (h : w.hierarchy.lookup? c n = some (.attribute v)) (active : Option InstanceId)
    (old : Option Delegate × Option Value) :
    w.published c active n old = (none, (w.shown? c active n).or old.2) := by
  simp [published, h]

/-- Publishing a name a second time changes nothing more. -/
theorem World.published_published (w : World) (c : ClassId) (active : Option InstanceId)
    (n : String) (old : Option Delegate × Option Value) :
    w.published c active n (w.published c active n old) = w.published c active n old := by
  rcases w.hierarchy.lookup?_cases c n with h | ⟨m, h⟩ | ⟨v, h⟩
  · rw [published_of_none h]
  · rw [published_of_method h, published_of_method h]
  · simp only [published_of_attribute h]
    cases w.shown? c active n <;> simp

end Published

/-- The exposed names of a class after a name was published. -/
def Hierarchy.exposing (h : Hierarchy) (c : ClassId) (exposed : NameSet) (n : String) : NameSet :=
  match h.lookup? c n with
  | some (.method _) => exposed.erase n
  | some (.attribute _) => exposed.insert n
  | none => exposed

namespace Scope

/-- The scope after a name was published for a class. -/
def place (w : World) (c : ClassId) (s : Scope) (n : String) : Scope := (s.publish w c n ∅).2

/-- A name without a meaning changes nothing. -/
theorem place_of_none {w : World} {c : ClassId} {n : String}
    (h : w.hierarchy.lookup? c n = none) (s : Scope) : place w c s n = s := by
  simp [place, publish, h]

/-- A method is installed. -/
theorem place_of_method {w : World} {c : ClassId} {n : String} {m : Method}
    (h : w.hierarchy.lookup? c n = some (.method m)) (s : Scope) :
    place w c s n = s.install (.ofMethod (w.hierarchy.name c) n m) := by
  simp [place, publish, h]

/-- An attribute takes the place of a delegate, and its value that of another value. -/
theorem place_of_attribute {w : World} {c : ClassId} {n : String} {v : Value}
    (h : w.hierarchy.lookup? c n = some (.attribute v)) (s : Scope) :
    place w c s n = ((w.shown? c s.active n).map ((s.uninstall n).bind n)).getD
      (s.uninstall n) := by
  have hshown : (s.uninstall n).activeValue? w c n = w.shown? c s.active n := rfl
  simp only [place, publish, h, hshown]
  cases w.shown? c s.active n <;> rfl

/-- Publishing treats the exposed names and the scope apart. -/
theorem publish_eq (w : World) (c : ClassId) (n : String) (exposed : NameSet) (s : Scope) :
    s.publish w c n exposed = (w.hierarchy.exposing c exposed n, place w c s n) := by
  unfold place publish Hierarchy.exposing
  rcases w.hierarchy.lookup?_cases c n with h | ⟨m, h⟩ | ⟨v, h⟩ <;> simp only [h]

/-- Publishing several names treats the exposed names and the scope apart. -/
theorem publishAll_eq (w : World) (c : ClassId) (names : List String) (exposed : NameSet)
    (s : Scope) : s.publishAll w c names exposed =
      (names.foldl (w.hierarchy.exposing c) exposed, names.foldl (place w c) s) := by
  unfold publishAll
  induction names generalizing exposed s with
  | nil => rfl
  | cons n names ih =>
    rw [List.foldl_cons, List.foldl_cons, List.foldl_cons, publish_eq, ih]

/-- Publishing a name keeps the frame. -/
theorem frame_place (w : World) (c : ClassId) (s : Scope) (n : String) :
    (place w c s n).frame = s.frame := by
  rcases w.hierarchy.lookup?_cases c n with h | ⟨m, h⟩ | ⟨v, h⟩
  · rw [place_of_none h]
  · rw [place_of_method h]
    rfl
  · rw [place_of_attribute h]
    cases w.shown? c s.active n <;> rfl

/-- Publishing a name keeps the active instance. -/
@[simp] theorem active_place (w : World) (c : ClassId) (s : Scope) (n : String) :
    (place w c s n).active = s.active := congrArg (fun f => f.2.2) (frame_place w c s n)

/-- Publishing a name changes what stands under it and nothing else. -/
theorem entry_place (w : World) (c : ClassId) (s : Scope) (n k : String) :
    (place w c s n).entry k =
      if k = n then w.published c s.active n (s.entry n) else s.entry k := by
  rcases w.hierarchy.lookup?_cases c n with h | ⟨m, h⟩ | ⟨v, h⟩
  · rw [place_of_none h, World.published_of_none h]
    split
    · rename_i hk
      rw [hk]
    · rfl
  · rw [place_of_method h, World.published_of_method h, entry_install, Delegate.name_ofMethod]
  · rw [place_of_attribute h, World.published_of_attribute h]
    cases w.shown? c s.active n with
    | none => exact entry_uninstall s n k
    | some v =>
      simp only [Option.map_some, Option.getD_some, entry_bind, entry_uninstall, Option.some_or]
      split <;> rfl

/-- Publishing several names keeps the frame. -/
theorem frame_foldl_place (w : World) (c : ClassId) (names : List String) (s : Scope) :
    (names.foldl (place w c) s).frame = s.frame := frame_foldl (frame_place w c) names s

/-- Publishing several names keeps the active instance. -/
@[simp] theorem active_foldl_place (w : World) (c : ClassId) (names : List String) (s : Scope) :
    (names.foldl (place w c) s).active = s.active :=
  congrArg (fun f => f.2.2) (frame_foldl_place w c names s)

/-- Publishing several names keeps the scope's name. -/
theorem name_foldl_place (w : World) (c : ClassId) (names : List String) (s : Scope) :
    (names.foldl (place w c) s).name = s.name :=
  congrArg (fun f => f.2.1) (frame_foldl_place w c names s)

/-- Publishing several names changes what stands under them, each by itself, and nothing else. -/
theorem entry_foldl_place (w : World) (c : ClassId) (names : List String) (s : Scope)
    (k : String) : (names.foldl (place w c) s).entry k =
      if k ∈ names then w.published c s.active k (s.entry k) else s.entry k := by
  induction names generalizing s with
  | nil => simp
  | cons n names ih =>
    rw [List.foldl_cons, ih, active_place, entry_place]
    by_cases hn : k = n
    · subst hn
      simp [World.published_published]
    · simp [hn]

end Scope

/-- Publishing a name counts it as exposed or not by what it means, and leaves other names. -/
theorem Hierarchy.mem_exposing (h : Hierarchy) (c : ClassId) (exposed : NameSet) (n k : String) :
    k ∈ h.exposing c exposed n ↔
      if k = n ∧ (h.lookup? c n).isSome = true then ∃ v, h.lookup? c n = some (.attribute v)
      else k ∈ exposed := by
  unfold exposing
  rcases h.lookup?_cases c n with hl | ⟨m, hl⟩ | ⟨v, hl⟩
  · simp [hl]
  · simp only [hl, Std.ExtTreeSet.mem_erase]
    by_cases hk : k = n
    · simp [hk]
    · simp [hk, Ne.symm hk]
  · simp only [hl, Std.ExtTreeSet.mem_insert, Std.LawfulEqCmp.compare_eq_iff_eq]
    by_cases hk : k = n
    · simp [hk]
    · simp [hk, Ne.symm hk]

/-- Publishing several names counts each as exposed or not by what it means. -/
theorem Hierarchy.mem_foldl_exposing (h : Hierarchy) (c : ClassId) (names : List String)
    (exposed : NameSet) (k : String) :
    k ∈ names.foldl (h.exposing c) exposed ↔
      if k ∈ names ∧ (h.lookup? c k).isSome = true then ∃ v, h.lookup? c k = some (.attribute v)
      else k ∈ exposed := by
  induction names generalizing exposed with
  | nil => simp
  | cons n names ih =>
    rw [List.foldl_cons, ih, mem_exposing]
    by_cases hn : k = n
    · subst hn
      by_cases hl : (h.lookup? c k).isSome = true
      · simp [hl]
      · simp [hl]
    · simp [hn]

namespace Scope

/-- Publishing a name again does nothing more. -/
theorem place_place (w : World) (c : ClassId) (s : Scope) (n : String) :
    place w c (place w c s n) n = place w c s n := by
  refine ext_entry (frame_place w c _ n) fun k => ?_
  simp only [entry_place, active_place]
  split <;> simp [World.published_published]

/-- Publishing several names again does nothing more. -/
theorem foldl_place_foldl_place (w : World) (c : ClassId) (names : List String) (s : Scope) :
    names.foldl (place w c) (names.foldl (place w c) s) = names.foldl (place w c) s := by
  refine ext_entry (frame_foldl_place w c names _) fun k => ?_
  simp only [entry_foldl_place, active_foldl_place]
  split <;> simp [World.published_published]

/-- Unbinding several names again does nothing more. -/
theorem foldl_unbind_foldl_unbind (names : List String) (s : Scope) :
    names.foldl unbind (names.foldl unbind s) = names.foldl unbind s := by
  refine ext_entry (frame_foldl_unbind names _) fun k => ?_
  simp only [entry_foldl_unbind, delegate?_foldl_unbind]
  split <;> rfl

end Scope

/-- Counting a name as exposed or not a second time does nothing more. -/
theorem Hierarchy.exposing_exposing (h : Hierarchy) (c : ClassId) (exposed : NameSet)
    (n : String) : h.exposing c (h.exposing c exposed n) n = h.exposing c exposed n := by
  apply Std.ExtTreeSet.ext_mem
  intro k
  simp only [mem_exposing]
  split <;> rfl

/-- Counting several names as exposed or not a second time does nothing more. -/
theorem Hierarchy.foldl_exposing_foldl_exposing (h : Hierarchy) (c : ClassId)
    (names : List String) (exposed : NameSet) :
    names.foldl (h.exposing c) (names.foldl (h.exposing c) exposed) =
      names.foldl (h.exposing c) exposed := by
  apply Std.ExtTreeSet.ext_mem
  intro k
  simp only [mem_foldl_exposing]
  split <;> rfl

end Delegation
