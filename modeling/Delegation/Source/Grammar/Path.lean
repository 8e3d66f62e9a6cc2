import Delegation.Source.Angles
import Delegation.Source.Reader
import Delegation.Text.Identifier
/-!
# Paths

How far a path reaches. In a type a part of a path takes arguments in angle
brackets at once, in an expression only after two colons. What is between angle
brackets is skipped as a whole.
-/

namespace Delegation.Source

/-- What a reader learns of a path. -/
structure PathForm where
  /-- The name of its last part. -/
  last : String
  /-- Whether its last part has arguments. -/
  applied : Bool
  /-- Whether it is made of names alone. -/
  plain : Bool
  deriving Repr

namespace Grammar

open Reader

/-- The words that lead a path and take no arguments. -/
def leadingWords : List String := ["super", "self", "crate", "try"]

/-- Whether a tree is an identifier. -/
def isName : Tree → Bool
  | .word w => isIdentifier w
  | _ => false

/-- Whether trees start as a path does. -/
def startsPath (ts : List Tree) : Bool :=
  Tree.startsPathColons ts || ts.head?.any fun t =>
    isName t || t.isMark '<' || t.isWord "self" || t.isWord "Self" || t.isWord "super" ||
      t.isWord "crate"

/-- Whether trees start with an exclamation mark that calls a macro and compares nothing. -/
def startsCall (ts : List Tree) : Bool :=
  ts.head?.any (·.isMark '!') && !Tree.startsMarks ['!', '='] ts

/-- Whether trees start with an angle bracket that opens arguments and is no part of an
operator. -/
def opensAngles (ts : List Tree) : Bool :=
  ts.head?.any (·.isMark '<') && !Tree.startsMarks ['<', '='] ts &&
    !Tree.startsMarks ['<', '<', '='] ts

/-- What is between angle brackets. -/
def angles : Reader Unit := do
  next (·.isMark '<')
  match (splitOutside closesAngles 0 none (← get)).2 with
  | _ :: rest => set rest
  | [] => failure

/-- The lifetimes that a type or a closure is for, if any are declared. -/
def tryBinder : Reader Bool := do
  let found ← tryWord "for"
  if found then angles
  return found

/-- A part of a path: its name, and whether it has arguments. -/
def pathPart (inType : Bool) : Reader (String × Bool) := do
  match ← get with
  | .word w :: ts =>
    let leads := leadingWords.contains w
    if !leads && w != "Self" && !isIdentifier w then failure
    skip 1
    if !leads && inType && opensAngles ts then
      angles
      return (w, true)
    else if !leads && Tree.startsPathColons ts && (ts[2]?).any (·.isMark '<') then
      skip 2
      angles
      return (w, true)
    else return (w, false)
  | _ => failure

/-- The parts of a path, at most so many. Two colons before parentheses end it. -/
def pathParts (inType : Bool) : Nat → Reader PathForm
  | 0 => failure
  | n + 1 => do
    let (last, applied) ← pathPart inType
    let ts ← get
    if Tree.startsPathColons ts && !(ts[2]?).any (·.isGroup .paren) then
      skip 2
      let path ← pathParts inType n
      return { path with plain := path.plain && !applied }
    else return { last, applied, plain := !applied }

/-- A path, which may be relative to a type in angle brackets. -/
def path (inType : Bool) : Reader PathForm := do
  if ← seesNext (·.isMark '<') then
    angles
    marks "::"
    let path ← pathParts inType (← get).length
    return { path with plain := false }
  else
    let _ ← tryMarks "::"
    pathParts inType (← get).length

/-- A macro call after its path: an exclamation mark and a group. -/
def call : Reader Unit := do
  skip 1
  next fun
    | .group _ _ => true
    | _ => false

end Grammar

end Delegation.Source
