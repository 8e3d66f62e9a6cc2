import Delegation.Arguments
import Delegation.Signature.Basic
/-!
# Renamed parameters

Calls to a method whose parameters were renamed. Rules give the new name for
an old one; adapting a call renames its keywords and makes sure that every
required parameter is covered, by a keyword or by the next value given by
position. The values given by position keep their order.
-/

namespace Delegation

/-- Pairs of an old and a new parameter name, in the order they were given. -/
structure Renaming where
  /-- The rules. -/
  rules : List (String × String)
  deriving DecidableEq, Repr, Inhabited

namespace Renaming

/-- No rules. -/
def empty : Renaming := ⟨[]⟩

/-- Whether there are no rules. -/
def isEmpty (r : Renaming) : Bool := r.rules.isEmpty

/-- Keywords under way: those no rule has taken yet, and those that have their new name. -/
structure Progress where
  /-- Keywords that no rule has taken. -/
  remaining : NameMap Value
  /-- Keywords under their new names. -/
  renamed : NameMap Value

/-- One rule takes the keyword of its old name, if it is still there. -/
def Progress.apply (k : Progress) (rule : String × String) : Progress :=
  match k.remaining[rule.1]? with
  | some v => ⟨k.remaining.erase rule.1, k.renamed.insert rule.2 v⟩
  | none => k

/-- The keywords of a call under their new names. One that no rule takes wins over one renamed
to its name. -/
def keywords (r : Renaming) (given : NameMap Value) : NameMap Value :=
  let progress := r.rules.foldl Progress.apply ⟨given, ∅⟩
  progress.renamed ∪ progress.remaining

/-- The values handed on by position: each parameter that no keyword names takes the next one,
and those left over follow. -/
def cover (keywords : NameMap Value) :
    List Parameter → List Value → Except CoverageError (List Value)
  | [], vs => .ok vs
  | p :: ps, vs =>
    if keywords.contains p.name then cover keywords ps vs
    else match vs with
      | [] => .error ⟨p.name⟩
      | v :: rest => (cover keywords ps rest).map (v :: ·)

/-- The arguments of a call with its keywords renamed, or the first required parameter that they
leave without a value. -/
def adapt (r : Renaming) (s : Signature) (a : Arguments) :
    Except CoverageError Arguments :=
  let keywords := r.keywords a.keywords
  (cover keywords s.required a.positional).map fun positional => ⟨positional, keywords⟩

/-- A parameter that a keyword names is passed over. -/
theorem cover_of_mem {keywords : NameMap Value} {p : Parameter} (hp : p.name ∈ keywords)
    (ps : List Parameter) (vs : List Value) :
    cover keywords (p :: ps) vs = cover keywords ps vs := by
  have hcontains : keywords.contains p.name = true := Std.ExtTreeMap.contains_iff_mem.2 hp
  cases vs <;> simp only [cover, hcontains, if_true]

/-- Any other parameter takes the next value, if there is one. -/
theorem cover_of_not_mem {keywords : NameMap Value} {p : Parameter} (hp : p.name ∉ keywords)
    (ps : List Parameter) (vs : List Value) :
    cover keywords (p :: ps) vs = match vs with
      | [] => .error ⟨p.name⟩
      | v :: rest => (cover keywords ps rest).map (v :: ·) := by
  have hcontains : ¬ keywords.contains p.name = true := mt Std.ExtTreeMap.contains_iff_mem.1 hp
  cases vs <;> simp only [cover, if_neg hcontains]

/-- Values that cover the parameters are handed on in their order. -/
theorem cover_eq_ok {keywords : NameMap Value} {ps : List Parameter} {vs ws : List Value}
    (h : cover keywords ps vs = .ok ws) : ws = vs := by
  induction ps generalizing vs ws with
  | nil => simpa [cover, eq_comm] using h
  | cons p ps ih =>
    by_cases hp : p.name ∈ keywords
    · rw [cover_of_mem hp] at h
      exact ih h
    · rw [cover_of_not_mem hp] at h
      cases vs with
      | nil => simp at h
      | cons v rest =>
        cases hc : cover keywords ps rest with
        | error e => simp [hc, Except.map] at h
        | ok us =>
          simp only [hc, Except.map, Except.ok.injEq] at h
          rw [← h, ih hc]

/-- Without rules the keywords stay as they are. -/
theorem keywords_empty (given : NameMap Value) : empty.keywords given = given := by
  apply Std.ExtTreeMap.ext_getElem?
  intro k
  simp [keywords, empty, Std.ExtTreeMap.getElem?_union]

end Renaming

end Delegation
