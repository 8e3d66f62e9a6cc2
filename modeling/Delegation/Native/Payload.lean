import Delegation.Value.Shape
/-!
# Native values

The native values that instances may carry. A native type is known by its full
name and by the shape of what its values hold; what a carried value holds can
be had only by asking for its own type.
-/

namespace Delegation

/-- A native type whose values instances may carry. -/
structure NativeType where
  /-- Its full name, as failures give it. -/
  name : String
  /-- The shape of what its values hold. -/
  shape : Shape
  deriving DecidableEq, Repr

/-- What a value of a native type holds. -/
@[reducible] def NativeType.Content (t : NativeType) : Type := t.shape.Carrier

/-- A native value carried by an instance. -/
structure Payload where
  /-- Its type. -/
  type : NativeType
  /-- What it holds. -/
  content : type.Content

namespace Payload

/-- What a carried value holds, if it is of the wanted type. -/
def as? (p : Payload) (type : NativeType) : Option type.Content :=
  if h : p.type = type then some (h ▸ p.content) else none

/-- A value is of its own type. -/
@[simp] theorem as?_type (p : Payload) : p.as? p.type = some p.content := by simp [as?]

end Payload

end Delegation
