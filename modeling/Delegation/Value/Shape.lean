import Delegation.Failure
import Delegation.Value.Basic
/-!
# Shapes

A shape says how the values of one static type are carried by dynamic values.
`Shape.toValue` carries a typed value over and never fails; `Shape.ofValue`
reads one back and names the mismatch when the value is of another type. An
integer is also read where a floating point number is wanted, rounded to the
nearest one.
-/

namespace Delegation

/-- A static type whose values dynamic values carry. -/
inductive Shape where
  /-- Any value, as it is. -/
  | any
  /-- Truth values. -/
  | bool
  /-- Integers of 64 bits. -/
  | int
  /-- Integers of 32 bits. -/
  | int32
  /-- Floating point numbers. -/
  | float
  /-- Texts. -/
  | text
  /-- Mappings from texts to values. -/
  | map
  /-- A type with one more value for absence. -/
  | option (inner : Shape)
  /-- Sequences over a type. -/
  | list (inner : Shape)
  deriving DecidableEq, Repr

namespace Shape

/-- The typed values of a shape. -/
@[reducible] def Carrier : Shape → Type
  | any => Value
  | bool => Bool
  | int => Int64
  | int32 => Int32
  | float => Binary64
  | text => String
  | map => List (String × Value)
  | option s => Option s.Carrier
  | list s => List s.Carrier

/-- The dynamic value that carries a typed one. -/
def toValue : (s : Shape) → s.Carrier → Value
  | any, v => v
  | bool, b => .bool b
  | int, i => .int i
  | int32, i => .int i.toInt64
  | float, x => .float x
  | text, t => .str t
  | map, entries => .map entries
  | option _, none => .none
  | option s, some x => s.toValue x
  | list s, xs => .list (xs.map s.toValue)

/-- The mismatch of a value with the type it was wanted for. -/
def mismatch (expected : String) (v : Value) : ConversionError := .mismatch expected v.typeName

/-- The typed value that a dynamic one carries. -/
def ofValue : (s : Shape) → Value → Except ConversionError s.Carrier
  | any, v => .ok v
  | bool, .bool b => .ok b
  | bool, v => .error (mismatch "bool" v)
  | int, .int i => .ok i
  | int, v => .error (mismatch "int" v)
  | int32, .int i =>
    if i.toInt32.toInt64 = i then .ok i.toInt32 else .error (mismatch "i32" (.int i))
  | int32, v => .error (mismatch "int" v)
  | float, .float x => .ok x
  | float, .int i => .ok (.ofInt i.toInt)
  | float, v => .error (mismatch "float" v)
  | text, .str t => .ok t
  | text, v => .error (mismatch "str" v)
  | map, .map entries => .ok entries
  | map, v => .error (mismatch "map" v)
  | option _, .none => .ok none
  | option s, v => (s.ofValue v).map some
  | list s, .list items => items.mapM s.ofValue
  | list _, v => .error (mismatch "list" v)

/-- Absence is read where something may be absent. -/
@[simp] theorem ofValue_option_none (s : Shape) : (option s).ofValue .none = .ok none := rfl

/-- A sequence is read item by item, and the first item that cannot be read decides. -/
@[simp] theorem ofValue_list (s : Shape) (items : List Value) :
    (list s).ofValue (.list items) = items.mapM s.ofValue := rfl

/-- A sequence is carried item by item. -/
@[simp] theorem toValue_list (s : Shape) (xs : List s.Carrier) :
    (list s).toValue xs = .list (xs.map s.toValue) := rfl

end Shape

end Delegation
