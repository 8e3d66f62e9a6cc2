import Delegation.Number.Shortest
import Delegation.Text.Quoted
import Delegation.Value.Basic
/-!
# Text of values

Two texts of a value: the displayed one, which looks like the literal that
would write it, and the inspected one, which names the kind of every part.
Both are built over lists of characters from the same list brackets and
separators.
-/

namespace Delegation

/-- Parts set one after the other with a comma and a blank between them. -/
def commaSeparated (parts : List (List Char)) : List Char := List.intercalate [',', ' '] parts

/-- Parts between square brackets. -/
def bracketed (parts : List (List Char)) : List Char := '[' :: (commaSeparated parts ++ [']'])

/-- Parts between braces. -/
def braced (parts : List (List Char)) : List Char :=
  '\x7b' :: (commaSeparated parts ++ ['\x7d'])

/-- A key, a colon, a blank and what belongs to the key. -/
def keyed (key : String) (text : List Char) : List Char :=
  (Quoted.quote key).toList ++ ':' :: ' ' :: text

/-- A word and, between parentheses, what it is applied to. -/
def applied (word : String) (text : List Char) : List Char :=
  word.toList ++ '(' :: (text ++ [')'])

/-- The decimal digits of an integer, after a minus sign if it is negative. -/
def intText (i : Int64) : List Char := (toString i.toInt).toList

/-- The word for a truth value. -/
def boolText (b : Bool) : List Char := (if b then "true" else "false").toList

namespace Value

mutual

/-- The displayed text of a value. -/
def displayChars : Value → List Char
  | none => "None".toList
  | bool b => boolText b
  | int i => intText i
  | float x => x.text
  | str s => (Quoted.quote s).toList
  | list items => bracketed (displayItems items)
  | map entries => braced (displayEntries entries)

/-- The displayed texts of a sequence. -/
def displayItems : List Value → List (List Char)
  | [] => []
  | v :: vs => displayChars v :: displayItems vs

/-- The displayed texts of entries, each a key and its value. -/
def displayEntries : List (String × Value) → List (List Char)
  | [] => []
  | (k, v) :: es => keyed k (displayChars v) :: displayEntries es

end

mutual

/-- The inspected text of a value. -/
def inspectChars : Value → List Char
  | none => "None".toList
  | bool b => applied "Bool" (boolText b)
  | int i => applied "Int" (intText i)
  | float x => applied "Float" x.text
  | str s => applied "Str" (Quoted.quote s).toList
  | list items => applied "List" (bracketed (inspectItems items))
  | map entries => applied "Map" (braced (inspectEntries entries))

/-- The inspected texts of a sequence. -/
def inspectItems : List Value → List (List Char)
  | [] => []
  | v :: vs => inspectChars v :: inspectItems vs

/-- The inspected texts of entries, each a key and its value. -/
def inspectEntries : List (String × Value) → List (List Char)
  | [] => []
  | (k, v) :: es => keyed k (inspectChars v) :: inspectEntries es

end

/-- The displayed text of a value, as the literal that would write it. -/
def display (v : Value) : String := String.ofList v.displayChars

/-- The inspected text of a value, which names the kind of every part. -/
def inspect (v : Value) : String := String.ofList v.inspectChars

/-- The texts of a sequence are those of its items. -/
theorem displayItems_eq_map (items : List Value) :
    displayItems items = items.map displayChars := by
  induction items with
  | nil => rfl
  | cons v vs ih => simp [displayItems, ih]

/-- The texts of entries are those of the keys with their values. -/
theorem displayEntries_eq_map (entries : List (String × Value)) :
    displayEntries entries = entries.map fun e => keyed e.1 e.2.displayChars := by
  induction entries with
  | nil => rfl
  | cons e es ih => simp [displayEntries, ih]

end Value

end Delegation
