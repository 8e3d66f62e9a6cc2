import Delegation.Proofs.Lineage
/-!
# Bases that allow no order

A merge is greedy: it takes the first front that stands behind no other
element and never looks back. It loses nothing by that. If some order keeps
all sequences, its first element that occurs in them is a front and stands
behind nothing, so there is something to take; and whatever is taken, the same
order without that element keeps what is left. So a merge gets stuck only if
no order keeps its sequences, and a class is refused only then. Every round
uses up a place, so there is a last one.
-/

namespace Delegation

namespace Ancestry

variable {α : Type} [DecidableEq α] {seqs left : List (List α)} {picked l : List α} {x : α}

/-- An element that stands behind no other is dropped from the only place it can have. -/
theorem dropFront_eq_erase {s : List α} (h : x ∉ s.tail) : dropFront x s = s.erase x := by
  cases s with
  | nil => simp [dropFront]
  | cons y r =>
    by_cases hy : y = x
    · simp [dropFront, hy]
    · have hr : r.erase x = r := List.erase_of_not_mem h
      simp [dropFront, hy, hr]

/-- An order that keeps some sequences keeps what is left of them after a round, once the element
taken is removed from it. -/
theorem Keeps.dropAll (h : Keeps seqs l) (hx : next? seqs = some x) :
    Keeps (dropAll x seqs) (l.erase x) where
  nodup := h.nodup.erase x
  sublist t ht := by
    obtain ⟨s, hs, rfl⟩ := List.mem_map.1 ht
    rw [dropFront_eq_erase (not_mem_tail_of_next? hx hs)]
    exact (h.sublist s hs).erase x

omit [DecidableEq α] in
/-- In a part of an order, its first element comes first or not at all. -/
theorem head?_of_sublist_cons {s : List α} (h : s.Sublist (x :: l)) (hx : x ∉ l) (hs : x ∈ s) :
    s.head? = some x := by
  cases h with
  | cons _ h => exact absurd (h.subset hs) hx
  | cons_cons _ h => rfl

/-- Where some order keeps sequences that are not all used up, a round has something to take. -/
theorem Keeps.exists_next (h : Keeps seqs l) {s : List α} (hs : s ∈ seqs) (hne : s ≠ []) :
    ∃ x, next? seqs = some x := by
  induction l with
  | nil => exact absurd (List.sublist_nil.1 (h.sublist s hs)) hne
  | cons x l ih =>
    obtain ⟨hx, hl⟩ := List.nodup_cons.1 h.nodup
    by_cases hmem : ∃ t ∈ seqs, x ∈ t
    · -- the first element of the order is a front wherever it occurs
      obtain ⟨t, ht, hxt⟩ := hmem
      have hfront : x ∈ seqs.filterMap List.head? :=
        List.mem_filterMap.2 ⟨t, ht, head?_of_sublist_cons (h.sublist t ht) hx hxt⟩
      have hfree : isFree seqs x = true := by
        rw [isFree, List.all_eq_true]
        intro t ht
        exact decide_eq_true fun htail => hx ((h.sublist t ht).tail.subset htail)
      exact Option.isSome_iff_exists.1 (List.find?_isSome.2 ⟨x, hfront, hfree⟩)
    · -- an element that occurs nowhere is not needed in the order
      refine ih ⟨hl, fun t ht => ?_⟩
      rcases List.sublist_cons_iff.1 (h.sublist t ht) with hrest | ⟨r, rfl, -⟩
      · exact hrest
      · exact absurd ⟨_, ht, List.mem_cons_self⟩ hmem

/-- A merge gets stuck exactly if no order keeps the merged sequences. -/
theorem merge_eq_none_iff : merge seqs = none ↔ ¬ ∃ l, Keeps seqs l := by
  constructor
  · intro h
    fun_induction merge seqs with
    | case1 seqs x hx ih =>
      rintro ⟨l, hl⟩
      exact ih (Option.map_eq_none_iff.1 h) ⟨l.erase x, hl.dropAll hx⟩
    | case2 seqs hnone hall => cases h
    | case3 seqs hnone hall =>
      rintro ⟨l, hl⟩
      obtain ⟨s, hs, hne⟩ : ∃ s ∈ seqs, s ≠ [] := by
        simpa [List.all_eq_true] using hall
      obtain ⟨x, hx⟩ := hl.exists_next hs hne
      rw [hnone] at hx
      cases hx
  · intro h
    cases hm : merge seqs with
    | none => rfl
    | some l => exact absurd ⟨l, keeps_merge hm⟩ h

/-- Rounds of a merge, one after the other: what they pick, and what they leave of the
sequences. -/
inductive Rounds : List (List α) → List α → List (List α) → Prop where
  /-- Before the first round. -/
  | start (seqs : List (List α)) : Rounds seqs [] seqs
  /-- One round and those after it. -/
  | round {seqs left : List (List α)} {x : α} {picked : List α} (found : next? seqs = some x)
      (rest : Rounds (dropAll x seqs) picked left) : Rounds seqs (x :: picked) left

/-- Every round uses up a place, so there are no more rounds than places. -/
theorem Rounds.length_add_weight_le (h : Rounds seqs picked left) :
    picked.length + weight left ≤ weight seqs := by
  induction h with
  | start seqs => simp
  | @round seqs left x picked found rest ih =>
    have hlt := weight_dropAll_lt (mem_fronts_of_next? found)
    rw [List.length_cons]
    omega

/-- A merge comes to a round that finds nothing to take. It has then picked its result, or it is
stuck with sequences that are not used up. -/
theorem exists_rounds (seqs : List (List α)) : ∃ picked left, Rounds seqs picked left ∧
    next? left = none ∧ merge seqs = if left.all List.isEmpty then some picked else none := by
  fun_induction merge seqs with
  | case1 seqs x hx ih =>
    obtain ⟨picked, left, hrounds, hend, hmerge⟩ := ih
    refine ⟨x :: picked, left, .round hx hrounds, hend, ?_⟩
    rw [hmerge]
    split <;> rfl
  | case2 seqs hnone hall => exact ⟨[], seqs, .start seqs, hnone, (if_pos hall).symm⟩
  | case3 seqs hnone hall => exact ⟨[], seqs, .start seqs, hnone, (if_neg hall).symm⟩

end Ancestry

namespace Hierarchy

variable {h h' : Hierarchy} {name : String} {bases : List ClassId} {members : NameMap Member}

/-- The sequences that the ancestors of a class are merged from. -/
def strands (h : Hierarchy) (bases : List ClassId) : List (List ClassId) :=
  bases.map h.chain ++ [bases]

/-- An order keeps what the ancestors of a class are merged from if it keeps the chain of every
base and the list of bases. -/
theorem keeps_strands {l : List ClassId} : Ancestry.Keeps (h.strands bases) l ↔
    l.Nodup ∧ (∀ b ∈ bases, (h.chain b).Sublist l) ∧ bases.Sublist l := by
  constructor
  · rintro ⟨hnodup, hsub⟩
    exact ⟨hnodup, fun b hb => hsub _ (List.mem_append_left _ (List.mem_map_of_mem hb)),
      hsub _ (List.mem_append_right _ (List.mem_singleton_self _))⟩
  · rintro ⟨hnodup, hchains, hbases⟩
    refine ⟨hnodup, fun s hs => ?_⟩
    rcases List.mem_append.1 hs with hs | hs
    · obtain ⟨b, hb, rfl⟩ := List.mem_map.1 hs
      exact hchains b hb
    · obtain rfl := List.mem_singleton.1 hs
      exact hbases

/-- A class is refused for its bases alone, exactly if their merge gets stuck. -/
theorem declare_eq_error_iff {e : DeclarationError} :
    h.declare name bases members = .error e ↔
      e = .noAncestorOrder name ∧ Ancestry.merge (h.strands bases) = none := by
  unfold declare Ancestry.ancestors? strands
  cases Ancestry.merge (bases.map h.chain ++ [bases]) <;> simp [eq_comm]

/-- A class as it is asked for. -/
structure Wanted where
  /-- Its name. -/
  name : String
  /-- Its direct bases in the order of declaration. -/
  bases : List ClassId
  /-- Its own members. -/
  members : NameMap Member

/-- Asks for classes one after the other: the hierarchy in the end, and for each of them the new
class or why it was refused. -/
def request (h : Hierarchy) : List Wanted → Hierarchy × List (Except DeclarationError ClassId)
  | [] => (h, [])
  | q :: qs =>
    match h.declare q.name q.bases q.members with
    | .ok h' =>
      let done := h'.request qs
      (done.1, .ok h.classes.length :: done.2)
    | .error e =>
      let done := h.request qs
      (done.1, .error e :: done.2)

/-- Asking for classes declares one for each that was not refused, and they take the next places
in order. -/
theorem request_places (h : Hierarchy) (qs : List Wanted) :
    ∃ n, (h.request qs).1.classes.length = h.classes.length + n ∧
      (h.request qs).2.filterMap Except.toOption = List.range' h.classes.length n := by
  induction qs generalizing h with
  | nil => exact ⟨0, rfl, rfl⟩
  | cons q qs ih =>
    unfold request
    cases hd : h.declare q.name q.bases q.members with
    | error e =>
      obtain ⟨n, hlength, hplaces⟩ := ih h
      exact ⟨n, hlength, hplaces⟩
    | ok h' =>
      obtain ⟨ancestors, -, hcl⟩ := declare_classes hd
      have hnext : h'.classes.length = h.classes.length + 1 := by
        rw [hcl, List.length_append, List.length_singleton]
      obtain ⟨n, hlength, hplaces⟩ := ih h'
      refine ⟨n + 1, ?_, ?_⟩
      · simp only [hlength, hnext]
        omega
      · simp only [List.filterMap_cons, Except.toOption, hplaces, hnext, List.range'_succ]

/-- Asking for more classes goes on where asking for the first ones ended. -/
theorem request_append (h : Hierarchy) (qs rs : List Wanted) :
    h.request (qs ++ rs) =
      (((h.request qs).1.request rs).1, (h.request qs).2 ++ ((h.request qs).1.request rs).2) := by
  induction qs generalizing h with
  | nil => rfl
  | cons q qs ih =>
    rw [List.cons_append, request, request]
    cases h.declare q.name q.bases q.members with
    | error e => simp only [ih, List.cons_append]
    | ok h' => simp only [ih, List.cons_append]

/-- A class is refused exactly if no list of classes without repetitions keeps the chain of every
base and the list of bases, and there is no other reason to refuse one. The merge always comes to
a last round, after no more rounds than there are places, and the class is refused if that round
leaves something. A class that was refused leaves nothing behind: whatever is asked for after it
goes as if it had not been asked for, and the classes that are not refused take the next places in
order. -/
theorem declare_refused_iff (h : Hierarchy) (name : String) (bases : List ClassId)
    (members : NameMap Member) :
    (∀ e, h.declare name bases members = .error e ↔ e = .noAncestorOrder name ∧
      ¬ ∃ l : List ClassId, l.Nodup ∧ (∀ b ∈ bases, (h.chain b).Sublist l) ∧ bases.Sublist l) ∧
    (∀ h', h.declare name bases members = .ok h' → ∃ l : List ClassId,
      h'.chain h.classes.length = h.classes.length :: l ∧ l.Nodup ∧
      (∀ b ∈ bases, (h.chain b).Sublist l) ∧ bases.Sublist l ∧
      ∀ a ∈ l, ∃ b ∈ bases, a ∈ h.chain b) ∧
    (∀ picked left, Ancestry.Rounds (h.strands bases) picked left →
      picked.length + Ancestry.weight left ≤ Ancestry.weight (h.strands bases)) ∧
    (∃ picked left, Ancestry.Rounds (h.strands bases) picked left ∧ Ancestry.next? left = none ∧
      ∀ e, h.declare name bases members = .error e ↔
        e = .noAncestorOrder name ∧ ∃ s ∈ left, s ≠ []) ∧
    (∀ early late e, (h.request early).1.declare name bases members = .error e →
      h.request (early ++ ⟨name, bases, members⟩ :: late) =
        ((h.request (early ++ late)).1,
          (h.request early).2 ++ .error e :: ((h.request early).1.request late).2)) ∧
    ∀ qs, ∃ n, (h.request qs).1.classes.length = h.classes.length + n ∧
      (h.request qs).2.filterMap Except.toOption = List.range' h.classes.length n := by
  refine ⟨?refused, ?declared, fun picked left hrounds => hrounds.length_add_weight_le, ?last,
    ?skipped, request_places h⟩
  case refused =>
    intro e
    simp only [declare_eq_error_iff, Ancestry.merge_eq_none_iff, keeps_strands]
  case declared =>
    intro h' hd
    obtain ⟨l, hl, -, hchain⟩ := chain_declare_new hd
    obtain ⟨hnodup, hchains, hbases⟩ := keeps_strands.1 (Ancestry.keeps_merge hl)
    exact ⟨l, hchain, hnodup, hchains, hbases,
      fun a => (Ancestry.mem_ancestors? hl fun b _ => h.mem_chain_self b).1⟩
  case last =>
    obtain ⟨picked, left, hrounds, hend, hmerge⟩ := Ancestry.exists_rounds (h.strands bases)
    refine ⟨picked, left, hrounds, hend, fun e => ?_⟩
    rw [declare_eq_error_iff, hmerge]
    simp [List.all_eq_true]
  case skipped =>
    intro early late e he
    have hnow : (h.request early).1.request (⟨name, bases, members⟩ :: late) =
        (((h.request early).1.request late).1,
          .error e :: ((h.request early).1.request late).2) := by
      simp only [request, he]
    rw [request_append, request_append, hnow]

/-- In the diamond no class can name the shared base before one that descends from it, and the
other way round one can. -/
theorem declare_refused_iff_diamond :
    diamond.declare "Crossed" [0, 1] ∅ = .error (.noAncestorOrder "Crossed") ∧
      (¬ ∃ l : List ClassId, l.Nodup ∧ (∀ b ∈ [0, 1], (diamond.chain b).Sublist l) ∧
        [0, 1].Sublist l) ∧
      ∃ h' l, diamond.declare "Straight" [1, 0] ∅ = .ok h' ∧ h'.chain 4 = 4 :: l ∧
        [1, 0].Sublist l := by
  have hstuck : Ancestry.merge (diamond.strands [0, 1]) = none := by decide +kernel
  have hrefused : diamond.declare "Crossed" [0, 1] ∅ = .error (.noAncestorOrder "Crossed") :=
    declare_eq_error_iff.2 ⟨rfl, hstuck⟩
  have hmerged : Ancestry.ancestors? diamond.chain [1, 0] = some [1, 0] := by decide +kernel
  have hdeclared : diamond.declare "Straight" [1, 0] ∅ =
      .ok ⟨diamond.classes ++ [⟨"Straight", [1, 0], [1, 0], ∅⟩]⟩ := by
    rw [declare, hmerged]
  obtain ⟨l, hchain, -, -, hbases, -⟩ := (declare_refused_iff _ _ _ _).2.1 _ hdeclared
  exact ⟨hrefused, (((declare_refused_iff _ _ _ _).1 _).1 hrefused).2, _, l, hdeclared, hchain,
    hbases⟩

end Hierarchy

end Delegation
