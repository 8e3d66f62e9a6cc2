import Delegation.Hierarchy.Basic
/-!
# What declaring a class and setting a member leave alone

A class that was declared keeps its chain for ever, and the chains of declared
classes hold declared classes only. So a new class changes nothing for the
others, and a member set on a class is seen only along chains that hold that
class. The names of a class's members are exactly the names that mean
something for it.
-/

namespace Delegation

namespace Ancestry

variable {α : Type} [DecidableEq α]

/-- What a merge gives comes from the merged sequences. -/
theorem mem_of_mem_merge {seqs : List (List α)} {l : List α} (h : merge seqs = some l) {x : α}
    (hx : x ∈ l) : ∃ s ∈ seqs, x ∈ s := by
  fun_induction merge seqs generalizing l with
  | case1 seqs y hy ih =>
    obtain ⟨rest, hrest, rfl⟩ := Option.map_eq_some_iff.1 h
    rcases List.mem_cons.1 hx with rfl | hx
    · obtain ⟨s, hs, hd⟩ := List.mem_filterMap.1 (mem_fronts_of_next? hy)
      exact ⟨s, hs, List.mem_of_head? hd⟩
    · obtain ⟨s, hs, hxs⟩ := ih hrest hx
      obtain ⟨t, ht, rfl⟩ := List.mem_map.1 hs
      refine ⟨t, ht, ?_⟩
      unfold dropFront at hxs
      split at hxs
      · exact List.mem_of_mem_tail hxs
      · exact hxs
  | case2 seqs hnone hall =>
    cases h
    simp at hx
  | case3 seqs hnone hall => cases h

end Ancestry

namespace Hierarchy

/-- A class was declared. -/
def Knows (h : Hierarchy) (c : ClassId) : Prop := h.classes.length > c

instance (h : Hierarchy) (c : ClassId) : Decidable (h.Knows c) :=
  inferInstanceAs (Decidable (h.classes.length > c))

/-- The chains of declared classes hold declared classes only. -/
def Closed (h : Hierarchy) : Prop := ∀ c, h.Knows c → ∀ a ∈ h.chain c, h.Knows a

/-- Without classes nothing is declared. -/
theorem closed_empty : Closed empty := by
  intro c hc
  simp [Knows, empty] at hc

/-- Declaring a class keeps the declared ones. -/
theorem knows_declare {h h' : Hierarchy} {name : String} {bases : List ClassId}
    {members : NameMap Member} (e : h.declare name bases members = .ok h') {c : ClassId}
    (hc : h.Knows c) : h'.Knows c := by
  obtain ⟨ancestors, -, hcl⟩ := declare_classes e
  unfold Knows at *
  rw [hcl, List.length_append]
  omega

/-- Declaring a class leaves the declared ones as they are. -/
theorem class?_declare {h h' : Hierarchy} {name : String} {bases : List ClassId}
    {members : NameMap Member} (e : h.declare name bases members = .ok h') {c : ClassId}
    (hc : h.Knows c) : h'.class? c = h.class? c := by
  obtain ⟨ancestors, -, hcl⟩ := declare_classes e
  rw [class?, class?, hcl, List.getElem?_append_left hc]

/-- Declaring a class leaves the chains of the declared ones as they are. -/
theorem chain_declare {h h' : Hierarchy} {name : String} {bases : List ClassId}
    {members : NameMap Member} (e : h.declare name bases members = .ok h') {c : ClassId}
    (hc : h.Knows c) : h'.chain c = h.chain c := by
  rw [chain, chain, class?_declare e hc]

/-- A name means nothing, a method or an attribute. -/
theorem lookup?_cases (h : Hierarchy) (c : ClassId) (n : String) :
    h.lookup? c n = none ∨ (∃ m, h.lookup? c n = some (.method m)) ∨
      ∃ v, h.lookup? c n = some (.attribute v) := by
  rcases h.lookup? c n with _ | m | v
  · exact .inl rfl
  · exact .inr (.inl ⟨m, rfl⟩)
  · exact .inr (.inr ⟨v, rfl⟩)

/-- What a name means depends on the chain and on the members along it. -/
theorem lookup?_congr {h h' : Hierarchy} {c : ClassId} {n : String}
    (hchain : h'.chain c = h.chain c)
    (hown : ∀ a ∈ h.chain c, h'.ownMember? a n = h.ownMember? a n) :
    h'.lookup? c n = h.lookup? c n := by
  rw [lookup?, lookup?, hchain]
  generalize h.chain c = chain at hown
  induction chain with
  | nil => rfl
  | cons a chain ih =>
    rw [List.findSome?_cons, List.findSome?_cons, hown a List.mem_cons_self,
      ih fun b hb => hown b (List.mem_cons_of_mem _ hb)]

/-- Declaring a class leaves what names mean for the declared ones as it is. -/
theorem lookup?_declare {h h' : Hierarchy} (closed : h.Closed) {name : String}
    {bases : List ClassId} {members : NameMap Member}
    (e : h.declare name bases members = .ok h') {c : ClassId} (hc : h.Knows c) (n : String) :
    h'.lookup? c n = h.lookup? c n := by
  refine lookup?_congr (chain_declare e hc) fun a ha => ?_
  rw [ownMember?, ownMember?, ownMembers, ownMembers, class?_declare e (closed c hc a ha)]

/-- The chains stay closed when a class with declared bases is declared. -/
theorem closed_declare {h h' : Hierarchy} (closed : h.Closed) {name : String}
    {bases : List ClassId} {members : NameMap Member}
    (e : h.declare name bases members = .ok h') (hb : ∀ b ∈ bases, h.Knows b) : h'.Closed := by
  intro c hc a ha
  by_cases hold : h.Knows c
  · rw [chain_declare e hold] at ha
    exact knows_declare e (closed c hold a ha)
  · obtain ⟨ancestors, hanc, hcl⟩ := declare_classes e
    have hlt : c < h.classes.length + 1 := by simpa [Knows, hcl] using hc
    obtain rfl : c = h.classes.length := Nat.le_antisymm (Nat.le_of_lt_succ hlt) (Nat.not_lt.1 hold)
    rcases List.mem_cons.1 ha with rfl | ha
    · exact hc
    · have hnew : h'.class? h.classes.length = some ⟨name, bases, ancestors, members⟩ := by
        rw [class?, hcl]
        simp
      have ha : a ∈ ancestors := by simpa [hnew] using ha
      obtain ⟨s, hs, has⟩ := Ancestry.mem_of_mem_merge hanc ha
      apply knows_declare e
      rcases List.mem_append.1 hs with hs | hs
      · obtain ⟨b, hbm, rfl⟩ := List.mem_map.1 hs
        exact closed b (hb b hbm) a has
      · obtain rfl := List.mem_singleton.1 hs
        exact hb a has

/-- Setting a member declares no class. -/
theorem knows_setMember {h : Hierarchy} {c k : ClassId} {name : String} {m : Member} :
    (h.setMember c name m).Knows k ↔ h.Knows k := by
  simp [Knows, setMember]

/-- The chains stay closed when a member is set. -/
theorem closed_setMember {h : Hierarchy} (closed : h.Closed) (c : ClassId) (name : String)
    (m : Member) : (h.setMember c name m).Closed := by
  intro k hk a ha
  rw [chain_setMember] at ha
  exact knows_setMember.2 (closed k (knows_setMember.1 hk) a ha)

/-- Setting a member leaves the names of classes as they are. -/
theorem name_setMember (h : Hierarchy) (c k : ClassId) (name : String) (m : Member) :
    (h.setMember c name m).name k = h.name k := by
  simp only [Hierarchy.name, class?, setMember, List.getElem?_modify]
  split <;> cases h.classes[k]? <;> rfl

/-- A set member leaves every other class and every other name as it is. -/
theorem ownMember?_setMember_of_ne {h : Hierarchy} {c a : ClassId} {name n : String} (m : Member)
    (hne : ¬(a = c ∧ n = name)) :
    (h.setMember c name m).ownMember? a n = h.ownMember? a n := by
  by_cases hc : h.Knows c
  · rw [ownMember?_setMember h c a name n m hc, if_neg hne]
  · have hlist : (h.setMember c name m).classes = h.classes := by
      rw [setMember]
      exact List.modify_eq_self (Nat.not_lt.1 hc)
    rw [ownMember?, ownMember?, ownMembers, ownMembers, class?, class?, hlist]

/-- A set member changes what one name means, and only for classes that have its class in their
chain. -/
theorem lookup?_setMember {h : Hierarchy} {c k : ClassId} {name n : String} (m : Member)
    (hk : c ∉ h.chain k ∨ n ≠ name) :
    (h.setMember c name m).lookup? k n = h.lookup? k n := by
  refine lookup?_congr (chain_setMember h c k name m) fun a ha => ?_
  apply ownMember?_setMember_of_ne
  rintro ⟨rfl, rfl⟩
  rcases hk with hk | hk
  · exact hk ha
  · exact hk rfl

/-- A set member takes no name away from any class. -/
theorem isSome_lookup?_setMember {h : Hierarchy} {c k : ClassId} {name n : String} {m : Member}
    (hn : (h.lookup? k n).isSome = true) :
    ((h.setMember c name m).lookup? k n).isSome = true := by
  rw [lookup?, List.findSome?_isSome_iff] at *
  obtain ⟨a, ha, hv⟩ := hn
  refine ⟨a, by rwa [chain_setMember], ?_⟩
  by_cases heq : a = c ∧ n = name
  · obtain ⟨rfl, rfl⟩ := heq
    by_cases hc : h.Knows a
    · rw [ownMember?_setMember h a a n n m hc, if_pos ⟨rfl, rfl⟩]
      rfl
    · have : h.class? a = none := List.getElem?_eq_none (Nat.not_lt.1 hc)
      simp [ownMember?, ownMembers, this] at hv
  · rwa [ownMember?_setMember_of_ne m heq]

/-- A class's own members are found under its own names. -/
theorem mem_ownMembers {h : Hierarchy} {c : ClassId} {n : String} :
    n ∈ h.ownMembers c ↔ (h.ownMember? c n).isSome = true :=
  Std.ExtTreeMap.mem_iff_isSome_getElem?

/-- The names of a class's members are the names that mean something for it. -/
theorem mem_memberNames {h : Hierarchy} {c : ClassId} {n : String} :
    n ∈ h.memberNames c ↔ (h.lookup? c n).isSome = true := by
  have hfold : ∀ (chain : List ClassId) (names : NameSet),
      n ∈ chain.foldl (fun names a => names.insertMany (h.ownMembers a).keys) names ↔
        n ∈ names ∨ ∃ a ∈ chain, (h.ownMember? a n).isSome = true := by
    intro chain
    induction chain with
    | nil => simp
    | cons a chain ih =>
      intro names
      rw [List.foldl_cons, ih, Std.ExtTreeSet.mem_insertMany_list, List.contains_iff_mem,
        Std.ExtTreeMap.mem_keys, mem_ownMembers]
      simp only [List.mem_cons, exists_eq_or_imp, or_assoc]
  rw [memberNames, hfold, lookup?, List.findSome?_isSome_iff]
  simp

end Hierarchy

end Delegation
