import Delegation.Proofs.Hierarchy
import Delegation.Call
/-!
# What becomes of a world

Code outside a registry declares classes, creates instances, sets members,
uses native values and writes journals; the bodies of methods do no more than
that. Whatever it does, a later world has the classes and the instances of an
earlier one, and a name goes on meaning the same for a class along whose chain
no member was set.
-/

namespace Delegation

/-- The value of a plain member. -/
def Member.value? : Member → Option Value
  | .method _ => none
  | .attribute v => some v

namespace World

/-- An attribute is looked for among the instance's own, then among the members of its class. -/
theorem attribute?_eq {w : World} {i : InstanceId} {inst : Instance}
    (h : w.instance? i = some inst) (n : String) :
    w.attribute? i n =
      inst.attributes[n]?.or ((w.hierarchy.lookup? inst.cls n).bind Member.value?) := by
  simp only [attribute?, h, Option.bind_eq_bind, Option.bind_some]
  cases inst.attributes[n]? with
  | some v => rfl
  | none =>
    cases w.hierarchy.lookup? inst.cls n with
    | none => rfl
    | some m => cases m <;> rfl

/-- One thing that code outside a registry does to a world, given the classes it may set members
of. -/
inductive Change (may : ClassId → Prop) (w : World) : World → Prop where
  /-- A class is declared on declared bases. -/
  | declare {name : String} {bases : List ClassId} {members : NameMap Member} {w' : World}
      (known : ∀ b ∈ bases, w.hierarchy.Knows b)
      (declared : w.declareClass name bases members = .ok w') : Change may w w'
  /-- An instance of a declared class is created. -/
  | create (inst : Instance) (known : w.hierarchy.Knows inst.cls) : Change may w (w.create inst)
  /-- A member of a class is set. -/
  | setMember (c : ClassId) (name : String) (m : Member) (allowed : may c) :
      Change may w (w.setMember c name m)
  /-- The native value of an instance changes. -/
  | setPayload (i : InstanceId) (p : Payload) : Change may w (w.setPayload i p)
  /-- Journals are written or emptied. -/
  | write (journals : NameMap (List RecordedCall)) : Change may w { w with journals }

/-- What code outside a registry does to a world, one thing after the other. -/
inductive Evolves (may : World → ClassId → Prop) (w : World) : World → Prop where
  /-- Nothing happens. -/
  | refl : Evolves may w w
  /-- One more thing happens. -/
  | step {v v' : World} (before : Evolves may w v) (change : Change (may v) v v') :
      Evolves may w v'

/-- Classes have closed chains, and instances have declared classes. -/
structure Closed (w : World) : Prop where
  /-- The chains of declared classes hold declared classes only. -/
  hierarchy : w.hierarchy.Closed
  /-- Every instance has a declared class. -/
  classOf : ∀ i c, w.classOf? i = some c → w.hierarchy.Knows c

/-- A later world has all classes and instances of an earlier one, under the same names, with the
same chains and with the same attributes of their own. -/
structure Extends (w w' : World) : Prop where
  /-- Declared classes stay declared. -/
  knows : ∀ c, w.hierarchy.Knows c → w'.hierarchy.Knows c
  /-- Declared classes keep their names. -/
  name : ∀ c, w.hierarchy.Knows c → w'.hierarchy.name c = w.hierarchy.name c
  /-- Declared classes keep their chains. -/
  chain : ∀ c, w.hierarchy.Knows c → w'.hierarchy.chain c = w.hierarchy.chain c
  /-- Instances keep their classes and their own attributes. -/
  instance? : ∀ i inst, w.instance? i = some inst → ∃ inst', w'.instance? i = some inst' ∧
    inst'.cls = inst.cls ∧ inst'.attributes = inst.attributes

/-- A world extends itself. -/
theorem Extends.refl (w : World) : w.Extends w :=
  ⟨fun _ h => h, fun _ _ => rfl, fun _ _ => rfl, fun _ inst h => ⟨inst, h, rfl, rfl⟩⟩

/-- A world extends what it extends by steps. -/
theorem Extends.trans {w v w' : World} (h : w.Extends v) (h' : v.Extends w') : w.Extends w' where
  knows c hc := h'.knows c (h.knows c hc)
  name c hc := (h'.name c (h.knows c hc)).trans (h.name c hc)
  chain c hc := (h'.chain c (h.knows c hc)).trans (h.chain c hc)
  instance? i inst hi := by
    obtain ⟨mid, hmid, hcls, hattr⟩ := h.instance? i inst hi
    obtain ⟨last, hlast, hcls', hattr'⟩ := h'.instance? i mid hmid
    exact ⟨last, hlast, hcls'.trans hcls, hattr'.trans hattr⟩

/-- Instances keep their classes. -/
theorem Extends.classOf? {w w' : World} (h : w.Extends w') {i : InstanceId} {c : ClassId}
    (hi : w.classOf? i = some c) : w'.classOf? i = some c := by
  obtain ⟨inst, hinst, rfl⟩ := Option.map_eq_some_iff.1 hi
  obtain ⟨inst', hinst', hcls, -⟩ := h.instance? i inst hinst
  rw [World.classOf?, hinst', Option.map_some, hcls]

/-- An instance keeps the value of an attribute if the name means the same for its class. -/
theorem Extends.attribute? {w w' : World} (h : w.Extends w') {i : InstanceId} {c : ClassId}
    {n : String} (hi : w.classOf? i = some c)
    (hn : w'.hierarchy.lookup? c n = w.hierarchy.lookup? c n) :
    w'.attribute? i n = w.attribute? i n := by
  obtain ⟨inst, hinst, rfl⟩ := Option.map_eq_some_iff.1 hi
  obtain ⟨inst', hinst', hcls, hattr⟩ := h.instance? i inst hinst
  rw [attribute?_eq hinst, attribute?_eq hinst', hcls, hattr, hn]

/-- A change of the hierarchy alone extends the world if the classes stay. -/
theorem extends_of_hierarchy {w w' : World} (hi : w'.instances = w.instances)
    (hc : ∀ c, w.hierarchy.Knows c → w'.hierarchy.class? c = w.hierarchy.class? c) :
    w.Extends w' where
  knows c hk := by
    have : (w'.hierarchy.class? c).isSome = true := by
      rw [hc c hk, Hierarchy.class?, List.getElem?_eq_getElem hk]
      rfl
    obtain ⟨k, hk'⟩ := Option.isSome_iff_exists.1 this
    exact (List.getElem?_eq_some_iff.1 hk').1
  name c hk := by rw [Hierarchy.name, Hierarchy.name, hc c hk]
  chain c hk := by rw [Hierarchy.chain, Hierarchy.chain, hc c hk]
  instance? i inst h := ⟨inst, by rw [World.instance?, hi]; exact h, rfl, rfl⟩

/-- Declaring a class changes the hierarchy alone. -/
theorem declareClass_eq_ok {w w' : World} {name : String} {bases : List ClassId}
    {members : NameMap Member} (h : w.declareClass name bases members = .ok w') :
    ∃ h', w.hierarchy.declare name bases members = .ok h' ∧ w' = { w with hierarchy := h' } := by
  unfold declareClass at h
  cases hd : w.hierarchy.declare name bases members with
  | error e => simp [hd, Except.map] at h
  | ok h' =>
    rw [hd] at h
    exact ⟨h', rfl, (Except.ok.inj h).symm⟩

/-- Everything that other code does extends the world. -/
theorem Change.extends {may : ClassId → Prop} {w w' : World} (h : Change may w w') :
    w.Extends w' := by
  cases h with
  | declare known declared =>
    obtain ⟨h', hd, rfl⟩ := declareClass_eq_ok declared
    exact extends_of_hierarchy rfl fun c hc => Hierarchy.class?_declare hd hc
  | create inst known =>
    refine ⟨fun _ h => h, fun _ _ => rfl, fun _ _ => rfl, fun i old h => ⟨old, ?_, rfl, rfl⟩⟩
    have hlt : i < w.instances.length := (List.getElem?_eq_some_iff.1 h).1
    rw [instance?, World.create, List.getElem?_append_left hlt]
    exact h
  | setMember c name m allowed =>
    exact ⟨fun _ => Hierarchy.knows_setMember.2,
      fun k _ => Hierarchy.name_setMember w.hierarchy c k name m,
      fun k _ => Hierarchy.chain_setMember w.hierarchy c k name m,
      fun i old h => ⟨old, h, rfl, rfl⟩⟩
  | setPayload i p =>
    refine ⟨fun _ h => h, fun _ _ => rfl, fun _ _ => rfl, fun k old h => ?_⟩
    rw [instance?] at h
    by_cases hk : i = k
    · exact ⟨{ old with payload := some p }, by simp [instance?, World.setPayload, hk, h], rfl, rfl⟩
    · exact ⟨old, by simp [instance?, World.setPayload, hk, h], rfl, rfl⟩
  | write journals =>
    exact ⟨fun _ h => h, fun _ _ => rfl, fun _ _ => rfl, fun i old h => ⟨old, h, rfl, rfl⟩⟩

/-- Setting a member extends the world. -/
theorem extends_setMember (w : World) (c : ClassId) (name : String) (m : Member) :
    w.Extends (w.setMember c name m) := by
  have h : Change (fun _ => True) w (w.setMember c name m) := .setMember c name m trivial
  exact h.extends

/-- A world stays closed. -/
theorem Change.closed {may : ClassId → Prop} {w w' : World} (h : Change may w w')
    (hw : w.Closed) : w'.Closed := by
  cases h with
  | declare known declared =>
    obtain ⟨h', hd, rfl⟩ := declareClass_eq_ok declared
    exact ⟨Hierarchy.closed_declare hw.hierarchy hd known,
      fun i c hi => Hierarchy.knows_declare hd (hw.classOf i c hi)⟩
  | create inst known =>
    refine ⟨hw.hierarchy, fun i c hi => ?_⟩
    obtain ⟨k, hk, rfl⟩ := Option.map_eq_some_iff.1 hi
    rcases List.mem_append.1 (List.mem_of_getElem? hk) with hk | hk
    · obtain ⟨j, hj⟩ := List.mem_iff_getElem?.1 hk
      exact hw.classOf j k.cls (by rw [classOf?, instance?, hj, Option.map_some])
    · obtain rfl := List.mem_singleton.1 hk
      exact known
  | setMember c name m allowed =>
    exact ⟨Hierarchy.closed_setMember hw.hierarchy c name m,
      fun i k hi => Hierarchy.knows_setMember.2 (hw.classOf i k hi)⟩
  | setPayload i p =>
    refine ⟨hw.hierarchy, fun k c hk => hw.classOf k c ?_⟩
    rw [← hk, classOf?, classOf?, instance?, instance?, World.setPayload, List.getElem?_modify]
    cases w.instances[k]? with
    | none => rfl
    | some old => by_cases h : i = k <;> simp [h]
  | write journals => exact ⟨hw.hierarchy, hw.classOf⟩

/-- A world stays closed when a member is set. -/
theorem Closed.setMember {w : World} (hw : w.Closed) (c : ClassId) (name : String) (m : Member) :
    (w.setMember c name m).Closed := by
  have h : Change (fun _ => True) w (w.setMember c name m) := .setMember c name m trivial
  exact h.closed hw

/-- Whatever happens to a world, it stays closed. -/
theorem Evolves.closed {may : World → ClassId → Prop} {w w' : World} (h : Evolves may w w')
    (hw : w.Closed) : w'.Closed := by
  induction h with
  | refl => exact hw
  | step before change ih => exact change.closed ih

/-- What a name means for a class stays unless a member of a class of its chain may be set. -/
theorem Change.lookup? {may : ClassId → Prop} {w w' : World} (h : Change may w w')
    (hw : w.Closed) {c : ClassId} (hc : w.hierarchy.Knows c)
    (hmay : ∀ a, may a → a ∉ w.hierarchy.chain c) (n : String) :
    w'.hierarchy.lookup? c n = w.hierarchy.lookup? c n := by
  cases h with
  | declare known declared =>
    obtain ⟨h', hd, rfl⟩ := declareClass_eq_ok declared
    exact Hierarchy.lookup?_declare hw.hierarchy hd hc n
  | create inst known => rfl
  | setMember a name m allowed => exact Hierarchy.lookup?_setMember m (.inl (hmay a allowed))
  | setPayload i p => rfl
  | write journals => rfl

/-- Whatever happens to a world extends it. -/
theorem Evolves.extends {may : World → ClassId → Prop} {w w' : World} (h : Evolves may w w') :
    w.Extends w' := by
  induction h with
  | refl => exact .refl w
  | step before change ih => exact ih.trans change.extends

/-- What a name means for a class stays, whatever happens to the world, unless a member of a class
of its chain may be set. -/
theorem Evolves.lookup? {may : World → ClassId → Prop} {w w' : World} (h : Evolves may w w')
    (hw : w.Closed) {c : ClassId} (hc : w.hierarchy.Knows c)
    (hmay : ∀ v a, may v a → a ∉ v.hierarchy.chain c) (n : String) :
    w'.hierarchy.lookup? c n = w.hierarchy.lookup? c n := by
  induction h with
  | refl => rfl
  | @step v v' before change ih =>
    rw [change.lookup? (before.closed hw) (before.extends.knows c hc) (hmay v), ih]

/-- A world without classes is closed. -/
theorem closed_empty : Closed empty where
  hierarchy := Hierarchy.closed_empty
  classOf i c h := by simp [classOf?, instance?, empty] at h

/-- A member is called without doing more to the world than the bodies of methods do. -/
theorem callVia_evolves {may : World → ClassId → Prop} {run : Runner}
    (hrun : ∀ m i b w, Evolves may w (run m i b w).1) (w : World) (i : InstanceId)
    (name : String) (a : Arguments) : Evolves may w (w.callVia run i name a).1 := by
  unfold callVia
  split
  · rename_i m _
    unfold Method.invoke
    cases m.signature.bind a with
    | error e => exact .refl
    | ok b => exact hrun m i b w
  · exact .refl
  · exact .refl

/-- The scripts of methods do only what other code may do as well. -/
theorem run_evolves (depth : Nat) (m : Method) (i : InstanceId) (b : Binding) (w : World) :
    Evolves (fun _ _ => True) w (run depth m i b w).1 := by
  induction depth generalizing m i b w with
  | zero => exact .refl
  | succ depth ih =>
    unfold run
    cases m.script with
    | describe => exact .refl
    | record journal v => exact .step .refl (.write _)
    | answer v => exact .refl
    | «attribute» name => exact .refl
    | fail text => exact .refl
    | extract param s => exact .refl
    | call name => exact callVia_evolves ih w i name b.again
    | payload kind => exact .refl
    | assign name v =>
      cases hc : w.classOf? i with
      | none => exact .refl
      | some c => exact .step .refl (.setMember c name _ trivial)
    | native n =>
      simp only [runNative]
      split
      · exact .refl
      · exact .step .refl (.setPayload i _)

end World

end Delegation
