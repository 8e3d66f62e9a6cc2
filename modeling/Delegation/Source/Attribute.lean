import Delegation.Source.Literal
import Delegation.Source.Token
import Delegation.Text.Blank
/-!
# Attributes

Attributes of items and parameters. An attribute is known by a path of one
word; the documentation of an item is what its `doc` attributes say, line by
line.
-/

namespace Delegation.Source

/-- An attribute. -/
structure Attribute where
  /-- Whether it stands inside what it is about. -/
  inner : Bool
  /-- What is between its brackets. -/
  content : List Tree
  deriving Repr, Inhabited

namespace Attribute

/-- What an attribute says after its name. -/
inductive Argument where
  /-- Nothing. -/
  | absent
  /-- A list between delimiters. -/
  | listed (inside : List Tree)
  /-- A value after an equals sign. -/
  | assigned (value : List Tree)

/-- The trees of an attribute. -/
def trees (a : Attribute) : List Tree :=
  .alone '#' :: ((if a.inner then [.alone '!'] else []) ++ [.group .bracket a.content])

/-- The trees of attributes in a row. -/
def allTrees (as : List Attribute) : List Tree := as.flatMap trees

/-- What an attribute says, if it has a given name. -/
def argument? (name : String) (a : Attribute) : Option Argument :=
  match a.content with
  | [.word w] => if w = name then some .absent else none
  | .word w :: .mark '=' _ :: value => if w = name then some (.assigned value) else none
  | .word w :: .group _ inside :: _ => if w = name then some (.listed inside) else none
  | _ => none

/-- Whether an attribute has a given name. -/
def isNamed (name : String) (a : Attribute) : Bool := (a.argument? name).isSome

/-- The attributes before an item, and the rest. -/
def outer : List Tree → List Attribute × List Tree
  | .mark '#' _ :: .group .bracket content :: ts =>
    let (found, rest) := outer ts
    (⟨false, content⟩ :: found, rest)
  | ts => ([], ts)

/-- The attributes at the start of a body about what the body belongs to, and the rest. -/
def leading : List Tree → List Attribute × List Tree
  | .mark '#' _ :: .mark '!' _ :: .group .bracket content :: ts =>
    let (found, rest) := leading ts
    (⟨true, content⟩ :: found, rest)
  | ts => ([], ts)

/-- The line of documentation that an attribute holds. -/
def docLine? (a : Attribute) : Option String :=
  match a.argument? "doc" with
  | some (.assigned [.literal text]) => Literal.value? text
  | _ => none

/-- A line without the blank that sets it off from the mark of a comment. -/
def unindented (line : String) : List Char :=
  match line.toList with
  | ' ' :: rest => rest
  | all => all

/-- The documentation that attributes hold: their lines, less the blanks at either end. -/
def documentation (as : List Attribute) : Option String :=
  let text := trimBlank (['\n'].intercalate ((as.filterMap docLine?).map unindented))
  if text.isEmpty then none else some (String.ofList text)

/-- An attribute has one name. -/
theorem isNamed_unique {a : Attribute} {m n : String} (hm : a.isNamed m = true)
    (hn : a.isNamed n = true) : m = n := by
  unfold isNamed argument? at hm hn
  split at hm <;> simp_all

end Attribute

end Delegation.Source
