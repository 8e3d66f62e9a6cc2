import Std.Data.ExtTreeMap
import Delegation.Number.Binary64
/-!
# Dynamic values

The values that calls carry and attributes hold. A mapping is a list of
entries; `Value.ofMap` is how one is made, so entries stand in the order of
their keys and no key occurs twice. `NameMap` is the map from names used
throughout: it has one value per name, and two maps are equal as soon as they
answer every name alike.
-/

namespace Delegation

/-- A finite map from names, visited in the order of the names. -/
abbrev NameMap (α : Type) := Std.ExtTreeMap String α

/-- The map of a list of entries, of which a later one wins. -/
def NameMap.ofEntries {α : Type} (entries : List (String × α)) : NameMap α :=
  (∅ : NameMap α).insertMany entries

/-- A dynamically typed value. -/
inductive Value where
  /-- The absent value. -/
  | none
  /-- A truth value. -/
  | bool (b : Bool)
  /-- A signed integer of 64 bits. -/
  | int (i : Int64)
  /-- A floating point number. -/
  | float (x : Binary64)
  /-- A text. -/
  | str (s : String)
  /-- A sequence of values. -/
  | list (items : List Value)
  /-- A mapping from texts, in the order of its keys. -/
  | map (entries : List (String × Value))
  deriving Repr, Inhabited

namespace Value

/-- The mapping that holds the entries of a map. -/
def ofMap (m : NameMap Value) : Value := .map m.toList

/-- The name of a value's type. -/
def typeName : Value → String
  | none => "none"
  | bool _ => "bool"
  | int _ => "int"
  | float _ => "float"
  | str _ => "str"
  | list _ => "list"
  | map _ => "map"

/-- Whether this is the absent value. -/
def isNone : Value → Bool
  | none => true
  | _ => false

/-- The text, if this is one. -/
def asStr? : Value → Option String
  | str s => some s
  | _ => Option.none

/-- The integer, if this is one. -/
def asInt? : Value → Option Int64
  | int i => some i
  | _ => Option.none

mutual

/-- Whether two values are the same, floating point numbers compared by their words. -/
def decEq : (v w : Value) → Decidable (v = w)
  | none, none => isTrue rfl
  | bool a, bool b => decidable_of_iff (a = b) (by simp)
  | int a, int b => decidable_of_iff (a = b) (by simp)
  | float a, float b => decidable_of_iff (a = b) (by simp)
  | str a, str b => decidable_of_iff (a = b) (by simp)
  | list a, list b =>
    match decEqItems a b with
    | isTrue h => isTrue (by rw [h])
    | isFalse h => isFalse (by simpa using h)
  | map a, map b =>
    match decEqEntries a b with
    | isTrue h => isTrue (by rw [h])
    | isFalse h => isFalse (by simpa using h)
  | none, bool _ | none, int _ | none, float _ | none, str _ | none, list _ | none, map _
  | bool _, none | bool _, int _ | bool _, float _ | bool _, str _ | bool _, list _ | bool _, map _
  | int _, none | int _, bool _ | int _, float _ | int _, str _ | int _, list _ | int _, map _
  | float _, none | float _, bool _ | float _, int _ | float _, str _ | float _, list _
  | float _, map _
  | str _, none | str _, bool _ | str _, int _ | str _, float _ | str _, list _ | str _, map _
  | list _, none | list _, bool _ | list _, int _ | list _, float _ | list _, str _ | list _, map _
  | map _, none | map _, bool _ | map _, int _ | map _, float _ | map _, str _ | map _, list _ =>
    isFalse (by simp)

/-- Whether two sequences hold the same values. -/
def decEqItems : (vs ws : List Value) → Decidable (vs = ws)
  | [], [] => isTrue rfl
  | [], _ :: _ => isFalse (by simp)
  | _ :: _, [] => isFalse (by simp)
  | v :: vs, w :: ws =>
    match decEq v w, decEqItems vs ws with
    | isTrue h, isTrue hs => isTrue (by rw [h, hs])
    | isFalse h, _ => isFalse (by simp [h])
    | _, isFalse hs => isFalse (by simp [hs])

/-- Whether two lists of entries are the same. -/
def decEqEntries : (es fs : List (String × Value)) → Decidable (es = fs)
  | [], [] => isTrue rfl
  | [], _ :: _ => isFalse (by simp)
  | _ :: _, [] => isFalse (by simp)
  | (k, v) :: es, (l, w) :: fs =>
    match decEq v w, decEqEntries es fs with
    | isTrue h, isTrue hs => decidable_of_iff (k = l) (by simp [h, hs])
    | isFalse h, _ => isFalse (by simp [h])
    | _, isFalse hs => isFalse (by simp [hs])

end

instance : DecidableEq Value := decEq

mutual

/-- Equality as the program's values compare: numbers by their numeric value within one type, so
that a floating point word that denotes no number differs from itself. -/
def numEq : Value → Value → Bool
  | none, none => true
  | bool a, bool b => a == b
  | int a, int b => a == b
  | float a, float b => a.numEq b
  | str a, str b => a == b
  | list a, list b => numEqItems a b
  | map a, map b => numEqEntries a b
  | _, _ => false

/-- Equality of sequences, item by item. -/
def numEqItems : List Value → List Value → Bool
  | [], [] => true
  | v :: vs, w :: ws => numEq v w && numEqItems vs ws
  | _, _ => false

/-- Equality of entries, key by key. -/
def numEqEntries : List (String × Value) → List (String × Value) → Bool
  | [], [] => true
  | (k, v) :: es, (l, w) :: fs => k == l && numEq v w && numEqEntries es fs
  | _, _ => false

end

/-- An integer never equals a floating point number. -/
@[simp] theorem numEq_int_float (i : Int64) (x : Binary64) :
    numEq (.int i) (.float x) = false := by simp [numEq]

end Value

end Delegation
