import Delegation.Source.Token
/-!
# Angle brackets

Angle brackets are punctuation and nest no trees, so whatever looks for the
end of a type or for the next comma has to count them. The head of an arrow
closes none.
-/

namespace Delegation.Source

/-- Whether a tree closes angle brackets, given the tree before it. -/
def closesAngles (previous : Option Tree) (t : Tree) : Bool :=
  t.isMark '>' && !previous.any (·.isMark '-')

/-- How deep in angle brackets one is after a tree, given the tree before it. -/
def depthAfter (previous : Option Tree) (t : Tree) (depth : Nat) : Nat :=
  if t.isMark '<' then depth + 1
  else if closesAngles previous t then depth - 1
  else depth

/-- Trees up to the first one outside angle brackets that ends them, and the rest. The end is
told from the tree and the one before it. -/
def splitOutside (ends : Option Tree → Tree → Bool) :
    Nat → Option Tree → List Tree → List Tree × List Tree
  | _, _, [] => ([], [])
  | depth, previous, t :: ts =>
    if depth = 0 && ends previous t then ([], t :: ts)
    else
      let (before, rest) := splitOutside ends (depthAfter previous t depth) (some t) ts
      (t :: before, rest)

/-- Trees up to the first one outside angle brackets that has a property, and the rest. -/
def splitAt (ends : Tree → Bool) (ts : List Tree) : List Tree × List Tree :=
  splitOutside (fun _ t => ends t) 0 none ts

/-- What is between angle brackets and what follows them, read after the opening bracket. -/
def splitAngles (ts : List Tree) : List Tree × List Tree :=
  let (inside, rest) := splitOutside closesAngles 0 none ts
  (inside, rest.drop 1)

/-- Trees up to the first single colon outside angle brackets, and what follows it. Two colons
joined to each other separate the parts of a path. -/
def splitColon : Nat → Option Tree → List Tree → List Tree × Option (List Tree)
  | _, _, [] => ([], none)
  | depth, _, .mark ':' true :: .mark ':' joint :: ts =>
    let (before, rest) := splitColon depth (some (.mark ':' joint)) ts
    (.mark ':' true :: .mark ':' joint :: before, rest)
  | depth, previous, t :: ts =>
    if depth = 0 && t.isMark ':' then ([], some ts)
    else
      let (before, rest) := splitColon (depthAfter previous t depth) (some t) ts
      (t :: before, rest)

/-- The pieces between commas outside angle brackets. Besides the trees to read, the arguments
say how deep in brackets one is, the tree before, and the trees of the piece so far. -/
def pieces : Nat → Option Tree → List Tree → List Tree → List (List Tree)
  | _, _, current, [] => [current]
  | depth, previous, current, t :: ts =>
    if depth = 0 && t.isMark ',' then current :: pieces 0 (some t) [] ts
    else pieces (depthAfter previous t depth) (some t) (current ++ [t]) ts

/-- A list with commas between its entries, and perhaps one at the end. -/
structure Listed (α : Type) where
  /-- The entries in order. -/
  entries : List α
  /-- Whether a comma follows the last entry. -/
  trailing : Bool
  deriving Repr, Inhabited

namespace Listed

/-- The entries of a list of trees. -/
def ofTrees (ts : List Tree) : Listed (List Tree) :=
  let found := pieces 0 none [] ts
  if found.getLast?.any List.isEmpty then ⟨found.dropLast, 1 < found.length⟩
  else ⟨found, false⟩

/-- The entries with another in the place of each. -/
def map {α β : Type} (f : α → β) (l : Listed α) : Listed β := ⟨l.entries.map f, l.trailing⟩

/-- The trees of a list, given those of its entries. -/
def trees (l : Listed (List Tree)) : List Tree :=
  [Tree.alone ','].intercalate l.entries ++
    if l.trailing && !l.entries.isEmpty then [Tree.alone ','] else []

end Listed

end Delegation.Source
