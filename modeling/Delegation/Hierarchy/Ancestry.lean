/-!
# Ancestor chains

The order of a class's ancestors, merged from the chains of its bases and the
list of bases itself. A class may come next when it stands first in some
sequence and behind another class in none; the first such class is taken and
dropped from the front of every sequence. If there is none while sequences are
left, no order exists that keeps all of them.
-/

namespace Delegation.Ancestry

variable {α : Type} [DecidableEq α]

/-- Whether an element stands behind another one in no sequence. -/
def isFree (seqs : List (List α)) (x : α) : Bool := seqs.all fun s => decide (x ∉ s.tail)

/-- The first front of a sequence that stands behind another element in no sequence. -/
def next? (seqs : List (List α)) : Option α := (seqs.filterMap List.head?).find? (isFree seqs)

/-- A sequence without an element at its front. -/
def dropFront (x : α) (s : List α) : List α := if s.head? = some x then s.tail else s

/-- Sequences without an element at their fronts. -/
def dropAll (x : α) (seqs : List (List α)) : List (List α) := seqs.map (dropFront x)

/-- The number of places in all sequences. -/
def weight : List (List α) → Nat
  | [] => 0
  | s :: seqs => s.length + weight seqs

omit [DecidableEq α] in
/-- Places of a first sequence and of the others. -/
@[simp] theorem weight_cons (s : List α) (seqs : List (List α)) :
    weight (s :: seqs) = s.length + weight seqs := rfl

/-- Dropping an element never adds a place. -/
theorem length_dropFront_le (x : α) (s : List α) : (dropFront x s).length ≤ s.length := by
  unfold dropFront
  split <;> simp

/-- Dropping an element from every sequence never adds a place. -/
theorem weight_dropAll_le (x : α) (seqs : List (List α)) :
    weight (dropAll x seqs) ≤ weight seqs := by
  induction seqs with
  | nil => simp [weight, dropAll]
  | cons s seqs ih =>
    have h := length_dropFront_le x s
    simp only [dropAll, List.map_cons, weight_cons] at ih ⊢
    omega

/-- Dropping an element that is some front removes a place. -/
theorem weight_dropAll_lt {x : α} {seqs : List (List α)}
    (h : x ∈ seqs.filterMap List.head?) : weight (dropAll x seqs) < weight seqs := by
  induction seqs with
  | nil => simp at h
  | cons s seqs ih =>
    simp only [dropAll, List.map_cons, weight_cons] at ih ⊢
    have hs := length_dropFront_le x s
    have ht : weight (seqs.map (dropFront x)) ≤ weight seqs := weight_dropAll_le x seqs
    by_cases hx : s.head? = some x
    · obtain ⟨r, rfl⟩ : ∃ r, s = x :: r := by
        cases s with
        | nil => simp at hx
        | cons y r => exact ⟨r, by simpa using hx⟩
      simp only [dropFront, List.head?_cons, if_true, List.tail_cons, List.length_cons]
      omega
    · have : x ∈ seqs.filterMap List.head? := by
        rw [List.filterMap_cons] at h
        cases hd : s.head? with
        | none => simpa [hd] using h
        | some y =>
          rw [hd] at h
          rcases List.mem_cons.1 h with rfl | h
          · exact absurd hd hx
          · exact h
      have := ih this
      omega

/-- What comes next is the front of some sequence. -/
theorem mem_fronts_of_next? {seqs : List (List α)} {x : α} (h : next? seqs = some x) :
    x ∈ seqs.filterMap List.head? := List.mem_of_find?_eq_some h

/-- One order that keeps the order of every sequence, or nothing if the merge gets stuck. -/
def merge (seqs : List (List α)) : Option (List α) :=
  match _h : next? seqs with
  | some x => (merge (dropAll x seqs)).map (x :: ·)
  | none => if seqs.all List.isEmpty then some [] else none
termination_by weight seqs
decreasing_by exact weight_dropAll_lt (mem_fronts_of_next? _h)

/-- The ancestors of a class in order, given its bases and the chain of each. -/
def ancestors? (chain : α → List α) (bases : List α) : Option (List α) :=
  merge (bases.map chain ++ [bases])

/-- A class without bases has no ancestors. -/
theorem ancestors?_nil (chain : α → List α) : ancestors? chain [] = some [] := by
  unfold ancestors? merge
  split
  · rename_i h
    simp [next?] at h
  · simp

end Delegation.Ancestry
