import Mathlib.Data.String.Basic
import Delegation.Proofs.Slots
/-!
# Which fault of a call is reported

A call can have several faults at once, and one of them is reported. Values
that exceed the parameters come before all else; then the keywords are looked
at in the order of their names, so the least one without a place of its own is
reported; then the parameters in the order of declaration, so the first one
left without a value is. Each of these faults is described by the call alone,
without looking at how far binding got.
-/

namespace Delegation.Signature

variable {s : Signature} {a : Arguments} {e : BindError} {function : String}
  {keywords : NameMap Value} {ps : List Parameter} {vs : List Value} {given : Nat} {k : String}

/-- A call gives more values by position than there are parameters, and no parameter collects what
exceeds them. -/
def Exceeded (s : Signature) (a : Arguments) : Prop :=
  s.params.length < a.positional.length ∧ s.varargs = none

/-- A keyword has no place of its own beside a number of values given by position: it names a
parameter that one of these fills, or it names none and keywords are not collected. -/
def Misplaced (s : Signature) (given : Nat) (k : String) : Prop :=
  k ∈ s.filledNames given ∨ k ∉ s.paramNames ∧ s.varkw = none

/-- What is reported of a misplaced keyword. -/
def misplacement (s : Signature) (given : Nat) (k : String) : BindError :=
  if k ∈ s.filledNames given then .multipleValues s.name k else .unexpectedKeyword s.name k

/-- The least misplaced keyword of a call. -/
structure LeastMisplaced (s : Signature) (a : Arguments) (k : String) : Prop where
  /-- The call gives it. -/
  mem : k ∈ a.keywords
  /-- It has no place of its own. -/
  misplaced : s.Misplaced a.positional.length k
  /-- No misplaced keyword comes before it. -/
  le : ∀ k' ∈ a.keywords, s.Misplaced a.positional.length k' → k ≤ k'

/-- The first parameter that a call leaves without a value. -/
structure FirstEmpty (s : Signature) (a : Arguments) (i : Nat) (p : Parameter) : Prop where
  /-- It stands at the place. -/
  place : s.params[i]? = some p
  /-- It is given no value by position, none by keyword, and has no default. -/
  empty : a.positional.length ≤ i ∧ p.name ∉ a.keywords ∧ p.default = none
  /-- Every parameter before it has one of these. -/
  first : ∀ j q, j < i → s.params[j]? = some q →
    j < a.positional.length ∨ q.name ∈ a.keywords ∨ q.default ≠ none

/-- A keyword has a fault exactly if it is misplaced. -/
theorem keywordFault?_eq_some : s.keywordFault? given k = some e ↔
    s.Misplaced given k ∧ e = s.misplacement given k := by
  unfold keywordFault? Misplaced misplacement
  by_cases hfilled : k ∈ s.filledNames given
  · simp [hfilled, eq_comm]
  · by_cases hname : k ∈ s.paramNames
    · simp [hfilled, hname]
    · cases s.varkw <;> simp [hfilled, hname, eq_comm]

/-- A keyword is misplaced exactly if it has a fault. -/
theorem misplaced_iff : s.Misplaced given k ↔ (s.keywordFault? given k).isSome = true := by
  simp [Option.isSome_iff_exists, keywordFault?_eq_some]

/-- Along an increasing list, the first element with something is the least one that has. -/
theorem findSome?_eq_some_of_increasing {β : Type} {f : String → Option β} {v : β}
    {l : List String} (hl : l.Pairwise (· < ·)) : l.findSome? f = some v ↔
      ∃ k ∈ l, f k = some v ∧ ∀ k' ∈ l, (f k').isSome = true → k ≤ k' := by
  rw [List.findSome?_eq_some_iff]
  constructor
  · rintro ⟨before, k, after, rfl, hk, hbefore⟩
    have hafter : ∀ k' ∈ after, k < k' :=
      (List.pairwise_cons.1 (List.pairwise_append.1 hl).2.1).1
    refine ⟨k, List.mem_append_right _ List.mem_cons_self, hk, fun k' hk' hsome => ?_⟩
    rcases List.mem_append.1 hk' with hearly | hlate
    · rw [hbefore k' hearly] at hsome
      cases hsome
    · rcases List.mem_cons.1 hlate with rfl | hlater
      · exact le_rfl
      · exact (hafter k' hlater).le
  · rintro ⟨k, hk, hv, hleast⟩
    obtain ⟨before, after, rfl⟩ := List.append_of_mem hk
    refine ⟨before, k, after, rfl, hv, fun k' hk' => ?_⟩
    have hlt : k' < k := (List.pairwise_append.1 hl).2.2 k' hk' k List.mem_cons_self
    by_contra hsome
    have hle := hleast k' (List.mem_append_left _ hk') (Option.isSome_iff_ne_none.2 hsome)
    exact absurd hlt (not_lt.2 hle)

/-- The names of a map are listed in increasing order. -/
theorem keys_increasing {α : Type} (m : NameMap α) : m.keys.Pairwise (· < ·) :=
  m.ordered_keys.imp fun hlt => compareOfLessAndEq_eq_lt.1 hlt

/-- The keyword that is reported is the least misplaced one. -/
theorem findSome?_keywordFault?_eq_some :
    a.keywords.keys.findSome? (s.keywordFault? a.positional.length) = some e ↔
      ∃ k, s.LeastMisplaced a k ∧ e = s.misplacement a.positional.length k := by
  rw [findSome?_eq_some_of_increasing (keys_increasing a.keywords)]
  simp only [Std.ExtTreeMap.mem_keys, ← misplaced_iff, keywordFault?_eq_some]
  constructor
  · rintro ⟨k, hk, ⟨hmisplaced, he⟩, hle⟩
    exact ⟨k, ⟨hk, hmisplaced, hle⟩, he⟩
  · rintro ⟨k, ⟨hk, hmisplaced, hle⟩, he⟩
    exact ⟨k, hk, ⟨hmisplaced, he⟩, hle⟩

/-- Among misplaced keywords there is a least one. -/
theorem exists_leastMisplaced (h : ∃ k ∈ a.keywords, s.Misplaced a.positional.length k) :
    ∃ k, s.LeastMisplaced a k := by
  obtain ⟨k, hk, hmisplaced⟩ := h
  have hsome : (a.keywords.keys.findSome?
      (s.keywordFault? a.positional.length)).isSome = true :=
    List.findSome?_isSome_iff.2 ⟨k, Std.ExtTreeMap.mem_keys.2 hk, misplaced_iff.1 hmisplaced⟩
  obtain ⟨e, he⟩ := Option.isSome_iff_exists.1 hsome
  obtain ⟨least, hleast, -⟩ := findSome?_keywordFault?_eq_some.1 he
  exact ⟨least, hleast⟩

/-- A parameter has no value exactly if it is given none by position, none by keyword, and has no
default. -/
theorem valueAt?_eq_none_iff {i : Nat} {p : Parameter} : valueAt? keywords vs i p = none ↔
    vs.length ≤ i ∧ p.name ∉ keywords ∧ p.default = none := by
  rw [valueAt?, Option.or_eq_none_iff, Option.or_eq_none_iff, List.getElem?_eq_none_iff,
    Std.ExtTreeMap.mem_iff_isSome_getElem?, Option.not_isSome_iff_eq_none]

/-- Filling parameters fails at the first one, if that has no value, and otherwise where filling
the others fails. -/
theorem fill_cons_eq_error {p : Parameter} :
    fill function keywords (p :: ps) vs = .error e ↔
      valueAt? keywords vs 0 p = none ∧ e = .missingArgument function p.name ∨
      valueAt? keywords vs 0 p ≠ none ∧ fill function keywords ps vs.tail = .error e := by
  rw [fill_cons]
  cases valueAt? keywords vs 0 p with
  | none => simp [eq_comm]
  | some v => cases fill function keywords ps vs.tail <;> simp [Except.map]

/-- Filling parameters fails with the first one that has no value. -/
theorem fill_eq_error_iff : fill function keywords ps vs = .error e ↔
    ∃ i p, ps[i]? = some p ∧ valueAt? keywords vs i p = none ∧
      (∀ j q, j < i → ps[j]? = some q → valueAt? keywords vs j q ≠ none) ∧
      e = .missingArgument function p.name := by
  induction ps generalizing vs with
  | nil => simp [fill]
  | cons p ps ih =>
    rw [fill_cons_eq_error, ih]
    constructor
    · rintro (⟨hnone, he⟩ | ⟨hsome, i, q, hq, hnone, hbefore, he⟩)
      · exact ⟨0, p, rfl, hnone, fun j q hj => absurd hj (Nat.not_lt_zero j), he⟩
      · refine ⟨i + 1, q, hq, by rwa [valueAt?_succ], fun j r hj hr => ?_, he⟩
        cases j with
        | zero => exact Option.some.inj hr ▸ hsome
        | succ j =>
          rw [valueAt?_succ]
          exact hbefore j r (Nat.lt_of_succ_lt_succ hj) hr
    · rintro ⟨i, q, hq, hnone, hbefore, he⟩
      cases i with
      | zero =>
        obtain rfl : p = q := Option.some.inj hq
        exact .inl ⟨hnone, he⟩
      | succ i =>
        rw [valueAt?_succ] at hnone
        refine .inr ⟨hbefore 0 p (Nat.succ_pos i) rfl, i, q, hq, hnone, fun j r hj hr => ?_, he⟩
        rw [← valueAt?_succ]
        exact hbefore (j + 1) r (Nat.succ_lt_succ hj) hr

/-- The parameter that is reported is the first one without a value. -/
theorem fill_params_eq_error : fill s.name a.keywords s.params a.positional = .error e ↔
    ∃ i p, s.FirstEmpty a i p ∧ e = .missingArgument s.name p.name := by
  simp only [fill_eq_error_iff, ne_eq, valueAt?_eq_none_iff, not_and_or, Nat.not_le, not_not]
  constructor
  · rintro ⟨i, p, hp, hempty, hfirst, he⟩
    exact ⟨i, p, ⟨hp, hempty, hfirst⟩, he⟩
  · rintro ⟨i, p, ⟨hp, hempty, hfirst⟩, he⟩
    exact ⟨i, p, hp, hempty, hfirst, he⟩

/-- A call that exceeds the parameters is refused for that. -/
theorem bind_of_exceeded (h : s.Exceeded a) : s.bind a =
    .error (.tooManyPositional s.name s.params.length a.positional.length) := by
  unfold bind
  exact if_pos h

/-- What a call that does not exceed the parameters binds to is decided by its keywords and the
filled parameters. -/
theorem bind_of_not_exceeded (hroom : ¬ s.Exceeded a) : s.bind a =
    match a.keywords.keys.findSome? (s.keywordFault? a.positional.length) with
    | some fault => .error fault
    | none =>
      (fill s.name a.keywords s.params a.positional).map fun params =>
        { params
          varargs := a.positional.drop s.params.length
          varkw := a.keywords.filter fun k _ => k ∉ s.paramNames } := by
  unfold bind
  exact if_neg hroom

/-- A call that does not exceed the parameters is refused for its least misplaced keyword. -/
theorem bind_of_leastMisplaced (hroom : ¬ s.Exceeded a) (hk : s.LeastMisplaced a k) :
    s.bind a = .error (s.misplacement a.positional.length k) := by
  rw [bind_of_not_exceeded hroom, findSome?_keywordFault?_eq_some.2 ⟨k, hk, rfl⟩]

/-- A call with nothing to refuse but parameters left empty is refused for the first of them. -/
theorem bind_eq_error_of_placed (hroom : ¬ s.Exceeded a)
    (hplaced : ∀ k ∈ a.keywords, ¬ s.Misplaced a.positional.length k) :
    s.bind a = .error e ↔ ∃ i p, s.FirstEmpty a i p ∧ e = .missingArgument s.name p.name := by
  have hnone : a.keywords.keys.findSome? (s.keywordFault? a.positional.length) = none := by
    rw [List.findSome?_eq_none_iff]
    intro k hk
    have hfault := mt misplaced_iff.2 (hplaced k (Std.ExtTreeMap.mem_keys.1 hk))
    exact Option.not_isSome_iff_eq_none.1 hfault
  rw [← fill_params_eq_error, bind_of_not_exceeded hroom, hnone]
  cases fill s.name a.keywords s.params a.positional <;> simp [Except.map]

/-- Binding reports one definite fault, and binding slot by slot the same one. It reports too many
values by position, with the number of parameters and of those values, exactly if these exceed the
parameters and are not collected. Otherwise, if a keyword is misplaced, it reports the least
misplaced one: as given twice if a value given by position fills its parameter, and as unexpected if
it names none. Otherwise it reports the first parameter that is left without a value, if there is
one. -/
theorem bind_reports_first_fault (s : Signature) (a : Arguments) :
    (∀ e, s.bindInPlace a = .error e ↔ s.bind a = .error e) ∧
    (∀ function expected given,
      s.bind a = .error (.tooManyPositional function expected given) ↔ s.Exceeded a ∧
        function = s.name ∧ expected = s.params.length ∧ given = a.positional.length) ∧
    (¬ s.Exceeded a → (∃ k ∈ a.keywords, s.Misplaced a.positional.length k) →
      ∃ k, s.LeastMisplaced a k ∧
        (k ∈ s.filledNames a.positional.length →
          s.bind a = .error (.multipleValues s.name k)) ∧
        (k ∉ s.paramNames → s.bind a = .error (.unexpectedKeyword s.name k))) ∧
    (¬ s.Exceeded a → (∀ k ∈ a.keywords, ¬ s.Misplaced a.positional.length k) →
      ∀ e, s.bind a = .error e ↔
        ∃ i p, s.FirstEmpty a i p ∧ e = .missingArgument s.name p.name) := by
  refine ⟨fun e => by rw [bindInPlace_eq_bind], ?tooMany, ?misplaced, fun hroom hplaced e =>
    bind_eq_error_of_placed hroom hplaced⟩
  case tooMany =>
    intro function expected given
    by_cases hroom : s.Exceeded a
    · rw [bind_of_exceeded hroom]
      simp [hroom, eq_comm]
    · constructor
      · intro he
        -- every other fault is of another kind
        by_cases hplaced : ∃ k ∈ a.keywords, s.Misplaced a.positional.length k
        · obtain ⟨k, hk⟩ := exists_leastMisplaced hplaced
          rw [bind_of_leastMisplaced hroom hk, misplacement] at he
          split at he <;> cases he
        · have hnone : ∀ k ∈ a.keywords, ¬ s.Misplaced a.positional.length k :=
            fun k hk hmisplaced => hplaced ⟨k, hk, hmisplaced⟩
          obtain ⟨i, p, -, hmissing⟩ := (bind_eq_error_of_placed hroom hnone).1 he
          cases hmissing
      · rintro ⟨hexceeded, -⟩
        exact absurd hexceeded hroom
  case misplaced =>
    intro hroom hmisplaced
    obtain ⟨k, hk⟩ := exists_leastMisplaced hmisplaced
    refine ⟨k, hk, fun hfilled => ?_, fun hname => ?_⟩
    · rw [bind_of_leastMisplaced hroom hk, misplacement, if_pos hfilled]
    · have hfilled : k ∉ s.filledNames a.positional.length := fun hk =>
        hname (List.mem_of_mem_take hk)
      rw [bind_of_leastMisplaced hroom hk, misplacement, if_neg hfilled]

/-- A signature with two parameters that takes nothing else. -/
def pairSignature : Signature := ⟨"fetch", [⟨"url", none⟩, ⟨"depth", none⟩], none, none, by decide⟩

/-- A call with a parameter given twice, an unexpected keyword and a parameter left without a
value. -/
def faultyCall : Arguments := ⟨[.str "x"], .ofEntries [("url", .str "y"), ("extra", .int 1)]⟩

/-- Of three faults the keyword with the least name is reported, without it the parameter left
without a value, and before both the values that exceed the parameters. -/
theorem bind_reports_first_fault_sample :
    ¬ pairSignature.Exceeded faultyCall ∧
      (∃ k ∈ faultyCall.keywords, pairSignature.Misplaced 1 k) ∧
      pairSignature.bindInPlace faultyCall = .error (.unexpectedKeyword "fetch" "extra") ∧
      pairSignature.bind ⟨[.str "x"], ∅⟩ = .error (.missingArgument "fetch" "depth") ∧
      pairSignature.bind { faultyCall with positional := [.none, .none, .none] } =
        .error (.tooManyPositional "fetch" 2 3) := by
  have hroom : ¬ pairSignature.Exceeded faultyCall := fun hexceeded =>
    absurd hexceeded.1 (by decide)
  have hextra : "extra" ∈ faultyCall.keywords := NameMap.mem_ofEntries.2 (by decide)
  have hmisplaced : pairSignature.Misplaced 1 "extra" := .inr ⟨by decide, rfl⟩
  obtain ⟨hinPlace, -, hkeyword, -⟩ := bind_reports_first_fault pairSignature faultyCall
  obtain ⟨k, hk, -, hunexpected⟩ := hkeyword hroom ⟨"extra", hextra, hmisplaced⟩
  have hleast : k = "extra" := by
    have hnames : k ∈ ["url", "extra"] := NameMap.mem_ofEntries.1 hk.mem
    have hle : k ≤ "extra" := hk.le "extra" hextra hmisplaced
    rcases List.mem_cons.1 hnames with rfl | hrest
    · exact absurd hle (by decide +kernel)
    · exact List.mem_singleton.1 hrest
  subst hleast
  obtain ⟨-, -, -, hmissing⟩ := bind_reports_first_fault pairSignature ⟨[.str "x"], ∅⟩
  obtain ⟨-, htooMany, -, -⟩ := bind_reports_first_fault pairSignature
    { faultyCall with positional := [.none, .none, .none] }
  refine ⟨hroom, ⟨_, hextra, hmisplaced⟩, (hinPlace _).2 (hunexpected (by decide)), ?_,
    (htooMany "fetch" 2 3).2 ⟨⟨by decide, rfl⟩, rfl, rfl, rfl⟩⟩
  refine (hmissing (fun hexceeded => absurd hexceeded.1 (by decide))
    (fun k hk => absurd hk Std.ExtTreeMap.not_mem_empty) _).2
    ⟨1, ⟨"depth", none⟩, ⟨rfl, ?_, ?_⟩, rfl⟩
  · exact ⟨le_rfl, Std.ExtTreeMap.not_mem_empty, rfl⟩
  · intro j q hj _
    exact .inl hj

end Delegation.Signature
