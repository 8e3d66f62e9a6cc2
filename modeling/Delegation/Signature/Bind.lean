import Delegation.Arguments
import Delegation.Signature.Basic
/-!
# Binding

Arguments bound to a signature. Values given by position fill the parameters
in order; a keyword fills the parameter of its name; a parameter that nothing
fills takes its default. The first fault decides, in the order: too many
values by position, the least faulty keyword, the first parameter left empty.
-/

namespace Delegation.Signature

/-- The names of the parameters that a number of values given by position fills. -/
def filledNames (s : Signature) (given : Nat) : List String := s.paramNames.take given

/-- The fault of a keyword beside a number of values given by position. -/
def keywordFault? (s : Signature) (given : Nat) (keyword : String) : Option BindError :=
  if keyword ∈ s.filledNames given then some (.multipleValues s.name keyword)
  else if keyword ∈ s.paramNames then none
  else if s.varkw.isSome then none
  else some (.unexpectedKeyword s.name keyword)

/-- Every parameter with its value: the next one given by position, else that of its keyword,
else its default. -/
def fill (function : String) (keywords : NameMap Value) :
    List Parameter → List Value → Except BindError (List (String × Value))
  | [], _ => .ok []
  | p :: ps, v :: vs => (fill function keywords ps vs).map ((p.name, v) :: ·)
  | p :: ps, [] =>
    match keywords[p.name]?.or p.default with
    | some v => (fill function keywords ps []).map ((p.name, v) :: ·)
    | none => .error (.missingArgument function p.name)

/-- Arguments bound to a signature, or the first fault they have. -/
def bind (s : Signature) (a : Arguments) : Except BindError Binding :=
  let given := a.positional.length
  if s.params.length < given ∧ s.varargs = none then
    .error (.tooManyPositional s.name s.params.length given)
  else
    match a.keywords.keys.findSome? (s.keywordFault? given) with
    | some fault => .error fault
    | none =>
      (fill s.name a.keywords s.params a.positional).map fun params =>
        { params
          varargs := a.positional.drop s.params.length
          varkw := a.keywords.filter fun k _ => k ∉ s.paramNames }

/-- A filled list has the parameters' names in the order of declaration. -/
theorem fill_names {function : String} {keywords : NameMap Value} {ps : List Parameter}
    {vs : List Value} {bound : List (String × Value)}
    (h : fill function keywords ps vs = .ok bound) : bound.map (·.1) = ps.map (·.name) := by
  induction ps generalizing vs bound with
  | nil => simp_all [fill]
  | cons p ps ih =>
    cases vs with
    | cons v vs =>
      rw [fill] at h
      cases hf : fill function keywords ps vs with
      | error e => simp [hf, Except.map] at h
      | ok rest =>
        simp only [hf, Except.map, Except.ok.injEq] at h
        subst h
        simp [ih hf]
    | nil =>
      rw [fill] at h
      split at h
      · cases hf : fill function keywords ps [] with
        | error e => simp [hf, Except.map] at h
        | ok rest =>
          simp only [hf, Except.map, Except.ok.injEq] at h
          subst h
          simp [ih hf]
      · simp at h

/-- A binding has exactly the signature's parameters, in the order of declaration. -/
theorem bind_names {s : Signature} {a : Arguments} {b : Binding} (h : s.bind a = .ok b) :
    b.params.map (·.1) = s.paramNames := by
  unfold bind at h
  simp only at h
  split at h
  · simp at h
  · split at h
    · simp at h
    · cases hf : fill s.name a.keywords s.params a.positional with
      | error e => simp [hf, Except.map] at h
      | ok params =>
        simp only [hf, Except.map, Except.ok.injEq] at h
        subst h
        exact fill_names hf

end Delegation.Signature
