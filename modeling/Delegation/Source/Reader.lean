import Delegation.Source.Token
/-!
# Readers

A reader takes trees from the front of what is left, if they are what it looks
for. Where it fails, what is left starts with the tree that it could not take.
What is between delimiters is one tree to it.
-/

namespace Delegation.Source

/-- A reader of trees, with what it has found. -/
abbrev Reader := OptionT (StateM (List Tree))

namespace Reader

/-- Whether what is left starts in a certain way. -/
def sees (test : List Tree → Bool) : Reader Bool := return test (← get)

/-- Whether the next tree has a property. -/
def seesNext (test : Tree → Bool) : Reader Bool := sees (·.head?.any test)

/-- Whether the marks of an operator are next. -/
def seesMarks (text : String) : Reader Bool := sees (Tree.startsMarks text.toList)

/-- Takes a number of trees. -/
def skip (size : Nat) : Reader Unit := modify (·.drop size)

/-- Takes a tree with a property. -/
def next (test : Tree → Bool) : Reader Unit := do
  if ← seesNext test then skip 1 else failure

/-- Takes a given word. -/
def word (text : String) : Reader Unit := next (·.isWord text)

/-- Takes the marks of an operator. -/
def marks (text : String) : Reader Unit := do
  if ← seesMarks text then skip text.length else failure

/-- Takes a tree with a property, if it is next, and says so. -/
def tryNext (test : Tree → Bool) : Reader Bool := do
  let found ← seesNext test
  if found then skip 1
  return found

/-- Takes a given word, if it is next, and says so. -/
def tryWord (text : String) : Reader Bool := tryNext (·.isWord text)

/-- Takes the marks of an operator, if they are next, and says so. -/
def tryMarks (text : String) : Reader Bool := do
  let found ← seesMarks text
  if found then skip text.length
  return found

/-- Takes a lifetime, if one is next, and says so. -/
def tryLifetime : Reader Bool := do
  let found ← sees Tree.startsLifetime
  if found then skip 2
  return found

/-- The trees that a reader takes from the front of others, and the rest. -/
def split? {α : Type} (r : Reader α) (ts : List Tree) : Option (List Tree × List Tree) :=
  match r.run ts with
  | (some _, rest) => some (ts.splitAt (ts.length - rest.length))
  | (none, _) => none

/-- Whether a reader takes all of some trees. -/
def takesAll {α : Type} (r : Reader α) (ts : List Tree) : Bool :=
  match r.run ts with
  | (some _, rest) => rest.isEmpty
  | (none, _) => false

end Reader

end Delegation.Source
