import Delegation.Value.Shape
/-!
# Results of native methods

The types a native method may return, and how a result becomes the outcome of
a call: an error anywhere on the way in is the call's error, an absent value
is the absent value, and a count must fit the integers that values hold. The
items of a sequence may be of any type that dynamic values carry, and an error
of any type that can be a cause.
-/

namespace Delegation

/-- A type whose values dynamic values carry, and how they do. -/
structure CarriedType where
  /-- The typed values. -/
  Carrier : Type
  /-- The dynamic value that carries a typed one. -/
  toValue : Carrier → Value

namespace CarriedType

/-- The type with one value, which says nothing. -/
@[reducible] def unit : CarriedType := ⟨Unit, fun _ => .none⟩

/-- A type with one more value for absence. -/
@[reducible] def option (c : CarriedType) : CarriedType where
  Carrier := Option c.Carrier
  toValue
    | none => .none
    | some x => c.toValue x

/-- Sequences over a type. -/
@[reducible] def list (c : CarriedType) : CarriedType where
  Carrier := List c.Carrier
  toValue xs := .list (xs.map c.toValue)

end CarriedType

namespace Shape

/-- The static type that a shape stands for. -/
@[reducible] def carried (s : Shape) : CarriedType := ⟨s.Carrier, s.toValue⟩

/-- Absence is carried for a shape as for any type. -/
theorem carried_option (s : Shape) : (option s).carried = s.carried.option := by
  have htoValue : (option s).toValue = s.carried.option.toValue := by
    funext x
    cases x <;> rfl
  rw [carried, htoValue]

end Shape

/-- A static type of results that stand under no layer of absence or error. -/
inductive ReturnLeaf where
  /-- Any value, as it is. -/
  | any
  /-- The type with one value. -/
  | unit
  /-- Truth values. -/
  | bool
  /-- Integers of 64 bits. -/
  | int
  /-- Integers of 32 bits. -/
  | int32
  /-- Counts of 64 bits without a sign. -/
  | count
  /-- Floating point numbers. -/
  | float
  /-- Texts. -/
  | text
  /-- Texts that were fixed when the method was written. -/
  | fixedText
  /-- Sequences over a type that dynamic values carry. -/
  | list (item : CarriedType)

namespace ReturnLeaf

/-- The typed results of such a type. -/
@[reducible] def Carrier : ReturnLeaf → Type
  | any => Value
  | unit => Unit
  | bool => Bool
  | int => Int64
  | int32 => Int32
  | count => UInt64
  | float => Binary64
  | text | fixedText => String
  | list item => List item.Carrier

/-- The greatest integer that values hold. -/
def greatestInt : Nat := 9223372036854775807

/-- What a call ends with when its native method returns such a result. -/
def outcome : (l : ReturnLeaf) → l.Carrier → Except Cause Value
  | any, v => .ok v
  | unit, _ => .ok .none
  | bool, b => .ok (.bool b)
  | int, i => .ok (.int i)
  | int32, i => .ok (Shape.int32.toValue i)
  | count, n =>
    if n.toNat ≤ greatestInt then .ok (.int (Int64.ofInt n.toNat)) else .error .countTooLarge
  | float, x => .ok (.float x)
  | text, t => .ok (.str t)
  | fixedText, t => .ok (Shape.text.toValue t)
  | list item, xs => .ok (item.list.toValue xs)

end ReturnLeaf

/-- A static type that native methods return. -/
inductive ReturnShape where
  /-- A type of results that stand under no layer. -/
  | plain (leaf : ReturnLeaf)
  /-- A type with one more value for absence. -/
  | option (inner : ReturnShape)
  /-- A type with errors, each of which is the cause of a failure. -/
  | result {ε : Type} (cause : ε → Cause) (inner : ReturnShape)

namespace ReturnShape

/-- The typed results of a return shape. -/
@[reducible] def Carrier : ReturnShape → Type
  | plain l => l.Carrier
  | option r => Option r.Carrier
  | @result ε _ r => Except ε r.Carrier

/-- What a call ends with when its native method returns a result. -/
def outcome : (r : ReturnShape) → r.Carrier → Except Cause Value
  | plain l, x => l.outcome x
  | option _, none => .ok .none
  | option r, some x => r.outcome x
  | result cause _, .error e => .error (cause e)
  | result _ r, .ok x => r.outcome x

/-- A present result counts as what is present. -/
@[simp] theorem outcome_some (r : ReturnShape) (x : r.Carrier) :
    (option r).outcome (some x) = r.outcome x := rfl

/-- A result without an error counts as what was produced. -/
@[simp] theorem outcome_ok {ε : Type} (cause : ε → Cause) (r : ReturnShape) (x : r.Carrier) :
    (result cause r).outcome (.ok x) = r.outcome x := rfl

end ReturnShape

end Delegation
