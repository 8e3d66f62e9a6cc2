import Delegation.Proofs.Lineage
/-!
# What is found first along a chain

Members and handlers are looked for along a chain, and the first class that
has something decides. In a hierarchy that was built class by class a chain
has every class before all that it descends from and keeps the chains of the
bases. So nothing that descends from the deciding class, among the ancestors,
has something of its own, and a class that has nothing itself finds what one
of its bases finds. If one class is given something new, it is found wherever
that class stands in a chain behind none that has something.
-/

namespace Delegation

namespace Ancestry

variable {α β : Type} {f : α → Option β} {v : β}

/-- An element that stands before another one, in a list that has the other one only once, is found
in the part before it. -/
theorem mem_of_pair_sublist {before after : List α} {d a : α}
    (hpair : [d, a].Sublist (before ++ a :: after)) (hafter : a ∉ after) : d ∈ before := by
  obtain ⟨l, l', hl, hbefore, hrest⟩ := List.sublist_append_iff.1 hpair
  cases l with
  | cons x l =>
    have hx : d = x := (List.cons.inj hl).1
    exact hx ▸ hbefore.subset List.mem_cons_self
  | nil =>
    -- both would have to be found in the rest, and there is no second place for the later one
    have hboth : l' = [d, a] := hl.symm
    have hlate : [d, a].Sublist (a :: after) := hboth ▸ hrest
    have hlater : a ∈ after := (List.Sublist.tail hlate).subset List.mem_cons_self
    exact absurd hlater hafter

/-- A list that keeps another one's order finds what the other one finds, if the deciding element
is in it. -/
theorem findSome?_of_sublist {l l' before after : List α} {a : α}
    (hl : l = before ++ a :: after) (hnodup : l.Nodup) (hown : f a = some v)
    (hbefore : ∀ d ∈ before, f d = none) (hsub : l'.Sublist l) (ha : a ∈ l') :
    l'.findSome? f = some v := by
  obtain ⟨early, late, hsplit⟩ := List.append_of_mem ha
  have hrest : (a :: after).Nodup := (List.nodup_append.1 (hl ▸ hnodup)).2.1
  refine List.findSome?_eq_some_iff.2 ⟨early, a, late, hsplit, hown, fun d hd => hbefore d ?_⟩
  have hearly : [d].Sublist early := List.singleton_sublist.2 hd
  have hlate : [a].Sublist (a :: late) := List.singleton_sublist.2 List.mem_cons_self
  have hpair : [d, a].Sublist l' := hsplit ▸ hearly.append hlate
  exact mem_of_pair_sublist (hl ▸ hpair.trans hsub) (List.nodup_cons.1 hrest).1

/-- An element stands in a list behind none that has something. -/
def Foremost (f : α → Option β) (a : α) (l : List α) : Prop :=
  ∃ before after, l = before ++ a :: after ∧ ∀ d ∈ before, f d = none

/-- The first element of a list is foremost. -/
theorem foremost_head (f : α → Option β) (a : α) (l : List α) : Foremost f a (a :: l) :=
  ⟨[], l, rfl, fun _ hd => absurd hd List.not_mem_nil⟩

/-- Behind another element, one is foremost if the other has nothing and it is foremost without the
other. -/
theorem foremost_cons_of_ne {a x : α} {l : List α} (hne : x ≠ a) :
    Foremost f a (x :: l) ↔ f x = none ∧ Foremost f a l := by
  constructor
  · rintro ⟨before, after, hl, hbefore⟩
    cases before with
    | nil => exact absurd (List.cons.inj hl).1 hne
    | cons y before =>
      obtain ⟨rfl, hrest⟩ := List.cons.inj hl
      obtain ⟨hx, hothers⟩ := List.forall_mem_cons.1 hbefore
      exact ⟨hx, before, after, hrest, hothers⟩
  · rintro ⟨hx, before, after, rfl, hbefore⟩
    exact ⟨x :: before, after, rfl, List.forall_mem_cons.2 ⟨hx, hbefore⟩⟩

/-- What one element is given is found first where that element is foremost, and elsewhere what was
found before. -/
theorem findSome?_of_given {f' : α → Option β} {a : α} (ha : f' a = some v)
    (hothers : ∀ x, x ≠ a → f' x = f x) (l : List α) :
    (Foremost f a l → l.findSome? f' = some v) ∧
      (¬ Foremost f a l → l.findSome? f' = l.findSome? f) := by
  induction l with
  | nil =>
    refine ⟨fun ⟨before, after, hl, _⟩ => ?_, fun _ => rfl⟩
    exact absurd hl.symm (List.append_ne_nil_of_right_ne_nil before (List.cons_ne_nil a after))
  | cons x l ih =>
    by_cases hx : x = a
    · subst hx
      refine ⟨fun _ => ?_, fun hnot => absurd (foremost_head f x l) hnot⟩
      rw [List.findSome?_cons, ha]
    · rw [foremost_cons_of_ne hx, List.findSome?_cons, List.findSome?_cons, hothers x hx]
      cases hfx : f x with
      | none => simpa using ih
      | some y => simp

end Ancestry

namespace Hierarchy

variable {h : Hierarchy} {c : ClassId}

/-- In a chain, a class stands before every other class that it reaches. -/
theorem Built.mem_before (built : h.Built) (hc : h.Knows c) {before after : List ClassId}
    {a d : ClassId} (hchain : h.chain c = before ++ a :: after) (hd : d ∈ h.chain c)
    (hda : h.Reaches d a) (hne : d ≠ a) : d ∈ before := by
  have hordered := built.ordered c hc
  have hancestor := built.ordered d (built.closed c hc d hd)
  have hpair : [d, a].Sublist (h.chain c) :=
    (hancestor.before hda (Ne.symm hne)).trans (hordered.chains d hd)
  have hnodup := hordered.nodup
  rw [hchain] at hpair hnodup
  have hrest : (a :: after).Nodup := (List.nodup_append.1 hnodup).2.1
  exact Ancestry.mem_of_pair_sublist hpair (List.nodup_cons.1 hrest).1

/-- A class that another one reaches is reached by one of the other's bases. -/
theorem Built.exists_base (built : h.Built) (hc : h.Knows c) {a : ClassId} (ha : a ∈ h.chain c)
    (hne : a ≠ c) : ∃ b ∈ h.bases c, a ∈ h.chain b ∧ (h.chain b).Sublist (h.chain c) := by
  have hordered := built.ordered c hc
  rcases ((hordered.mem_chain a).1 ha).cases_head with heq | ⟨b, hb, hreaches⟩
  · exact absurd heq.symm hne
  · have hbase : b ∈ h.chain c := hordered.bases.subset hb
    have hancestor := built.ordered b (built.closed c hc b hbase)
    exact ⟨b, hb, (hancestor.mem_chain a).2 hreaches, hordered.chains b hbase⟩

variable {β : Type} {f : ClassId → Option β} {v : β}

/-- Something is found along a chain if a class that is reached has something. -/
theorem Ordered.isSome_findSome?_chain (ordered : h.Ordered c) :
    ((h.chain c).findSome? f).isSome = true ↔ ∃ a, h.Reaches c a ∧ (f a).isSome = true := by
  rw [List.findSome?_isSome_iff]
  simp only [ordered.mem_chain]

/-- What is found along a chain belongs to a class that is reached, and no other class that descends
from that one, among those reached, has something. -/
theorem Built.findSome?_chain_nearest (built : h.Built) (hc : h.Knows c)
    (hfound : (h.chain c).findSome? f = some v) : ∃ a, h.Reaches c a ∧ f a = some v ∧
      ∀ d, h.Reaches c d → h.Reaches d a → d ≠ a → f d = none := by
  have hordered := built.ordered c hc
  obtain ⟨before, a, after, hchain, hown, hbefore⟩ := List.findSome?_eq_some_iff.1 hfound
  have ha : a ∈ h.chain c := hchain ▸ List.mem_append_right _ List.mem_cons_self
  refine ⟨a, (hordered.mem_chain a).1 ha, hown, fun d hd hda hne => hbefore d ?_⟩
  exact built.mem_before hc hchain ((hordered.mem_chain d).2 hd) hda hne

/-- A class that has nothing itself finds what one of its bases finds. -/
theorem Built.findSome?_chain_base (built : h.Built) (hc : h.Knows c) (hself : f c = none)
    (hfound : (h.chain c).findSome? f = some v) :
    ∃ b ∈ h.bases c, (h.chain b).findSome? f = some v := by
  have hordered := built.ordered c hc
  obtain ⟨before, a, after, hchain, hown, hbefore⟩ := List.findSome?_eq_some_iff.1 hfound
  have ha : a ∈ h.chain c := hchain ▸ List.mem_append_right _ List.mem_cons_self
  have hne : a ≠ c := by
    rintro rfl
    rw [hself] at hown
    cases hown
  obtain ⟨b, hb, hab, hsub⟩ := built.exists_base hc ha hne
  have hkept : (h.chain b).findSome? f = some v :=
    Ancestry.findSome?_of_sublist hchain hordered.nodup hown hbefore hsub hab
  exact ⟨b, hb, hkept⟩

end Hierarchy

end Delegation
