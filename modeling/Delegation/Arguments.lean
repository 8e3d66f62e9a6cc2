import Delegation.Value.Shape
/-!
# Call arguments

The arguments of a call before and after they are bound to a signature. A
call gives values by position and by keyword; a binding has exactly one value
per parameter, in the order of declaration, and keeps what no parameter took.
-/

namespace Delegation

/-- The arguments of a call. -/
structure Arguments where
  /-- The values given by position, in the order of the call. -/
  positional : List Value
  /-- The values given by keyword. -/
  keywords : NameMap Value
  deriving DecidableEq, Inhabited

namespace Arguments

/-- A call without arguments. -/
def empty : Arguments := ⟨[], ∅⟩

/-- The number of arguments. -/
def count (a : Arguments) : Nat := a.positional.length + a.keywords.size

/-- Whether there are no arguments. -/
def isEmpty (a : Arguments) : Bool := a.positional.isEmpty && a.keywords.isEmpty

/-- The same arguments and one more by position. -/
def push (a : Arguments) (v : Value) : Arguments := { a with positional := a.positional ++ [v] }

/-- The same arguments with a value set for a keyword. -/
def set (a : Arguments) (keyword : String) (v : Value) : Arguments :=
  { a with keywords := a.keywords.insert keyword v }

/-- Equality of arguments as their values compare. -/
def numEq (a b : Arguments) : Bool :=
  Value.numEqItems a.positional b.positional &&
    Value.numEqEntries a.keywords.toList b.keywords.toList

end Arguments

/-- Arguments bound to the parameters of a signature. -/
structure Binding where
  /-- Every parameter with its value, in the order of declaration. -/
  params : List (String × Value)
  /-- The values given by position beyond the parameters. -/
  varargs : List Value
  /-- The values given by keywords that name no parameter. -/
  varkw : NameMap Value
  deriving DecidableEq, Inhabited

namespace Binding

/-- The value of a parameter. -/
def get? (b : Binding) (name : String) : Option Value :=
  (b.params.find? (·.1 == name)).map (·.2)

/-- The value of a parameter, read as a shape. -/
def extract (b : Binding) (s : Shape) (name : String) : Except ConversionError s.Carrier :=
  match b.get? name with
  | some v => s.ofValue v
  | none => .error (.missing name)

end Binding

end Delegation
