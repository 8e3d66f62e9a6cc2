import Delegation.Failure
import Delegation.Value.Text
/-!
# Signatures

The calling convention of a method: named parameters, some with a default,
and optional parameters that collect what the others do not take. A signature
is made by `Signature.declare`, which refuses a parameter list with the first
fault it has, so that every signature has distinct names and its defaults at
the end.
-/

namespace Delegation

/-- A named parameter. -/
structure Parameter where
  /-- The parameter's name. -/
  name : String
  /-- The value it takes when none is given. -/
  default : Option Value
  deriving DecidableEq, Repr, Inhabited

namespace Signature

/-- The first fault of a parameter list, given the names before it and whether one of those has
a default. A parameter's place is looked at before its name. -/
def paramFault? (seen : List String) (defaulted : Bool) : List Parameter → Option SignatureFault
  | [] => none
  | p :: ps =>
    if defaulted && p.default.isNone then some (.requiredAfterDefault p.name)
    else if p.name ∈ seen then some (.duplicate p.name)
    else paramFault? (p.name :: seen) (defaulted || p.default.isSome) ps

/-- The fault of a collecting parameter that has the name of another parameter. -/
def sinkFault? (params : List Parameter) (sink : Option String) : Option SignatureFault :=
  sink.bind fun name =>
    if name ∈ params.map (·.name) then some (.duplicate name) else none

/-- The fault of two collecting parameters of one name. -/
def sharedFault? (varargs varkw : Option String) : Option SignatureFault :=
  if varargs.isSome ∧ varargs = varkw then some .sharedSinkName else none

/-- The first fault of a signature's parts, if there is one. -/
def fault? (params : List Parameter) (varargs varkw : Option String) : Option SignatureFault :=
  (paramFault? [] false params).or
    ((sinkFault? params varargs).or ((sinkFault? params varkw).or (sharedFault? varargs varkw)))

end Signature

/-- The calling convention of a method. -/
structure Signature where
  /-- The method's name. -/
  name : String
  /-- The parameters in the order of declaration. -/
  params : List Parameter
  /-- The name of the parameter that collects values given by position. -/
  varargs : Option String
  /-- The name of the parameter that collects values given by keyword. -/
  varkw : Option String
  /-- The parts have no fault. -/
  sound : Signature.fault? params varargs varkw = none
  deriving DecidableEq

namespace Signature

/-- The name of the implicit parameter for the receiver. -/
def receiver : String := "self"

/-- A parameter list without a leading receiver. -/
def dropReceiver : List Parameter → List Parameter
  | [] => []
  | p :: ps => if p.name = receiver then ps else p :: ps

/-- The signature of a parameter list, or the first fault of the list. A leading receiver is no
parameter. -/
def declare (name : String) (params : List Parameter) (varargs varkw : Option String) :
    Except SignatureFault Signature :=
  match h : fault? (dropReceiver params) varargs varkw with
  | some fault => .error fault
  | none => .ok ⟨name, dropReceiver params, varargs, varkw, h⟩

/-- The names of the parameters. -/
def paramNames (s : Signature) : List String := s.params.map (·.name)

/-- The parameters before the first one with a default. -/
def required (s : Signature) : List Parameter := s.params.takeWhile (·.default.isNone)

/-- The texts of the parameters, collecting ones marked by stars. -/
def parts (s : Signature) : List (List Char) :=
  s.params.map (fun p => match p.default with
    | some v => p.name.toList ++ '=' :: v.displayChars
    | none => p.name.toList) ++
  (s.varargs.map fun n => '*' :: n.toList).toList ++
  (s.varkw.map fun n => '*' :: '*' :: n.toList).toList

/-- The text of a signature. -/
def display (s : Signature) : String :=
  String.ofList (applied s.name (commaSeparated s.parts))

/-- A declared signature has the parts it was declared with. -/
theorem declare_eq_ok {name : String} {params : List Parameter} {varargs varkw : Option String}
    {s : Signature} (h : declare name params varargs varkw = .ok s) :
    s.name = name ∧ s.params = dropReceiver params ∧ s.varargs = varargs ∧ s.varkw = varkw := by
  unfold declare at h
  split at h
  · simp at h
  · cases h
    exact ⟨rfl, rfl, rfl, rfl⟩

/-- A parameter list is refused exactly with its first fault. -/
theorem declare_eq_error {name : String} {params : List Parameter} {varargs varkw : Option String}
    {fault : SignatureFault} :
    declare name params varargs varkw = .error fault ↔
      fault? (dropReceiver params) varargs varkw = some fault := by
  unfold declare
  split <;> simp_all

end Signature

end Delegation
