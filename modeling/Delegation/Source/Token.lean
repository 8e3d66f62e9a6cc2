/-!
# Token trees

Source text as trees of tokens: words, marks of one character each, literals
kept as they are written, and groups between matching delimiters. A mark knows
whether it joins the next one, for marks in a row may make up one operator. The
printed form of a list of trees is the flat sequence of its tokens;
`printAll_append` says that printing goes tree by tree.
-/

namespace Delegation.Source

/-- The kinds of matching delimiters. -/
inductive Delimiter where
  /-- Round brackets. -/
  | paren
  /-- Braces. -/
  | brace
  /-- Square brackets. -/
  | bracket
  deriving DecidableEq, Repr

/-- A token, or a group of them between delimiters. -/
inductive Tree where
  /-- An identifier or keyword. -/
  | word (text : String)
  /-- A punctuation character, and whether another one follows it at once. -/
  | mark (c : Char) (joint : Bool)
  /-- A literal as it is written. -/
  | literal (text : String)
  /-- A group between delimiters. -/
  | group (delimiter : Delimiter) (inner : List Tree)
  deriving Repr, Inhabited

namespace Delimiter

/-- The text that opens a group. -/
def opening : Delimiter → String
  | paren => "("
  | brace => "\x7b"
  | bracket => "["

/-- The text that closes a group. -/
def closing : Delimiter → String
  | paren => ")"
  | brace => "\x7d"
  | bracket => "]"

end Delimiter

namespace Tree

mutual

/-- The flat tokens of a tree. -/
def print : Tree → List String
  | word text => [text]
  | mark c _ => [String.singleton c]
  | literal text => [text]
  | group d inner => d.opening :: (printAll inner ++ [d.closing])

/-- The flat tokens of trees in a row. -/
def printAll : List Tree → List String
  | [] => []
  | t :: ts => print t ++ printAll ts

end

/-- Trees in a row are printed one after the other. -/
theorem printAll_append (ts us : List Tree) : printAll (ts ++ us) = printAll ts ++ printAll us := by
  induction ts with
  | nil => rfl
  | cons t ts ih => simp [printAll, ih]

/-- A punctuation character that joins no other one. -/
def alone (c : Char) : Tree := .mark c false

/-- The printed form of trees in a row: their flat tokens with a blank between them. -/
def render (ts : List Tree) : String := String.intercalate " " (printAll ts)

/-- Whether a tree is a given punctuation character. -/
def isMark (c : Char) : Tree → Bool
  | mark d _ => d = c
  | _ => false

/-- Whether a tree is a given word. -/
def isWord (text : String) : Tree → Bool
  | word w => w = text
  | _ => false

/-- Whether trees start with the marks of an operator, each but the last joined to the next. -/
def startsMarks : List Char → List Tree → Bool
  | [], _ => true
  | [c], .mark d _ :: _ => c = d
  | c :: cs, .mark d joint :: ts => c = d && joint && startsMarks cs ts
  | _ :: _, _ => false

/-- Whether trees start with two colons, as between the parts of a path. -/
def startsPathColons (ts : List Tree) : Bool := startsMarks [':', ':'] ts

/-- Whether trees start with a lifetime. -/
def startsLifetime : List Tree → Bool
  | .mark '\'' _ :: .word _ :: _ => true
  | _ => false

/-- Whether a tree is a word. -/
def isAnyWord : Tree → Bool
  | word _ => true
  | _ => false

/-- Whether a tree is a literal. -/
def isLiteral : Tree → Bool
  | literal _ => true
  | word w => w = "true" || w = "false"
  | _ => false

/-- Whether a tree is a group between given delimiters. -/
def isGroup (d : Delimiter) : Tree → Bool
  | group e _ => d = e
  | _ => false

/-- Whether a tree is a group between braces. -/
def isBraced (t : Tree) : Bool := t.isGroup .brace

end Tree

end Delegation.Source
