import Delegation.Proofs.Hierarchy
/-!
# What a merge keeps

An order keeps some sequences if it repeats nothing and each sequence is found
in it in the same relative order. What a merge gives is such an order of
exactly the elements of the sequences: the element taken next stands behind
another one nowhere, so once it is dropped from every front it is in no
sequence any more, and whatever order keeps the rest keeps the sequences with
that element put in front.
-/

namespace Delegation.Ancestry

variable {α : Type} [DecidableEq α] {seqs : List (List α)} {x : α}

omit [DecidableEq α] in
/-- An order without repetitions that has every sequence as a sublist. -/
structure Keeps (seqs : List (List α)) (l : List α) : Prop where
  /-- Nothing is repeated. -/
  nodup : l.Nodup
  /-- Every sequence keeps its order. -/
  sublist : ∀ s ∈ seqs, s.Sublist l

/-- What comes next stands behind another element in no sequence. -/
theorem not_mem_tail_of_next? (h : next? seqs = some x) {s : List α} (hs : s ∈ seqs) :
    x ∉ s.tail := by
  have hfree : isFree seqs x = true := List.find?_some h
  rw [isFree, List.all_eq_true] at hfree
  exact of_decide_eq_true (hfree s hs)

/-- A sequence is in order in front of which an element was put, if it is without that element at
its front. -/
theorem sublist_cons_of_dropFront {s l : List α} (h : (dropFront x s).Sublist l) :
    s.Sublist (x :: l) := by
  unfold dropFront at h
  split at h
  · rename_i hhead
    obtain ⟨r, rfl⟩ := List.head?_eq_some_iff.1 hhead
    exact h.cons_cons x
  · exact h.cons x

/-- An element that stands behind no other is gone once it is dropped from the front. -/
theorem not_mem_dropFront {s : List α} (h : x ∉ s.tail) : x ∉ dropFront x s := by
  unfold dropFront
  split
  · exact h
  · rename_i hhead
    cases s with
    | nil => exact List.not_mem_nil
    | cons y r =>
      intro hx
      rcases List.mem_cons.1 hx with rfl | hx
      · exact hhead rfl
      · exact h hx

/-- A merge keeps the merged sequences. -/
theorem keeps_merge {l : List α} (h : merge seqs = some l) : Keeps seqs l := by
  fun_induction merge seqs generalizing l with
  | case1 seqs x hx ih =>
    obtain ⟨rest, hrest, rfl⟩ := Option.map_eq_some_iff.1 h
    have hkeeps : Keeps (dropAll x seqs) rest := ih hrest
    constructor
    · refine List.nodup_cons.2 ⟨fun hmem => ?_, hkeeps.nodup⟩
      obtain ⟨t, ht, hxt⟩ := mem_of_mem_merge hrest hmem
      obtain ⟨s, hs, rfl⟩ := List.mem_map.1 ht
      exact not_mem_dropFront (not_mem_tail_of_next? hx hs) hxt
    · intro s hs
      exact sublist_cons_of_dropFront (hkeeps.sublist _ (List.mem_map_of_mem hs))
  | case2 seqs hnone hall =>
    cases h
    refine ⟨List.nodup_nil, fun s hs => ?_⟩
    have hnil : s = [] := List.isEmpty_iff.1 (List.all_eq_true.1 hall s hs)
    exact hnil ▸ List.nil_sublist []
  | case3 seqs hnone hall => cases h

/-- A merge gives the elements of the merged sequences and no others. -/
theorem mem_merge {l : List α} (h : merge seqs = some l) {y : α} :
    y ∈ l ↔ ∃ s ∈ seqs, y ∈ s :=
  ⟨mem_of_mem_merge h, fun ⟨s, hs, hy⟩ => ((keeps_merge h).sublist s hs).subset hy⟩

end Delegation.Ancestry
