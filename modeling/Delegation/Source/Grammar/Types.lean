import Delegation.Source.Grammar.Path
/-!
# Types

How far a type, a sum of bounds or a clause of conditions reaches. A type is
read with or without a sum of bounds at its end, for in a cast a plus adds and
after a borrowing mark it belongs to what is around.
-/

namespace Delegation.Source.Grammar

open Reader

/-- Whether trees start as a bound after a plus does. -/
def startsBound (ts : List Tree) : Bool :=
  Tree.startsPathColons ts || Tree.startsLifetime ts || ts.head?.any fun t =>
    t.isAnyWord || t.isMark '?' || t.isGroup .paren || t.isGroup .bracket

/-- Whether trees end a list of conditions or bounds. -/
def endsConditions (ts : List Tree) : Bool :=
  ts.head?.all fun t =>
    t.isBraced || t.isMark ',' || t.isMark ';' || t.isMark '=' ||
      (t.isMark ':' && !Tree.startsPathColons ts)

/-- What stands before the parameters of a function type. -/
def functionHead : Reader Unit := do
  let _ ← tryWord "unsafe"
  if ← tryWord "extern" then
    let _ ← tryNext (·.isLiteral)
  word "fn"

mutual

/-- A type of at most so many parts, with a sum at its end or without. -/
def typeUpTo : Nat → Bool → Reader Unit
  | 0, _ => failure
  | n + 1, sum => do
    let bound ← tryBinder
    let ts ← get
    if ts.head?.any fun t => t.isWord "fn" || t.isWord "unsafe" || t.isWord "extern" then
      functionHead
      next (·.isGroup .paren)
      outputUpTo n
    else if startsPath ts then
      let path ← typePathUpTo n
      if path.plain && (← sees startsCall) then call
      else if sum then moreBoundsUpTo n
    else if bound then failure
    else if ts.head?.any (·.isGroup .paren) then
      skip 1
      if sum then moreBoundsUpTo n
    else if ts.head?.any (·.isGroup .bracket) || ts.head?.any (·.isWord "_") then skip 1
    else if ← tryMarks "*" then
      next fun t => t.isWord "const" || t.isWord "mut"
      typeUpTo n false
    else if ← tryMarks "&" then
      let _ ← tryLifetime
      let _ ← tryWord "mut"
      typeUpTo n false
    else if ts.head?.any (·.isMark '!') && !(ts[1]?).any (·.isMark '=') then skip 1
    else if ← tryWord "dyn" then
      let _ ← tryMarks "*"
      boundsUpTo n sum
    else if ← tryWord "impl" then boundsUpTo n sum
    else if Tree.startsLifetime ts then boundsUpTo n sum
    else failure

/-- A path in a type, whose last part may take arguments in parentheses. -/
def typePathUpTo : Nat → Reader PathForm
  | 0 => failure
  | n + 1 => do
    let found ← path true
    let ts ← get
    let colons := Tree.startsPathColons ts && (ts[2]?).any (·.isGroup .paren)
    if !found.applied && (colons || ts.head?.any (·.isGroup .paren)) then
      skip (if colons then 3 else 1)
      outputUpTo n
      return { found with applied := true, plain := false }
    else return found

/-- The type of a result after its arrow, if there is one. -/
def outputUpTo : Nat → Reader Unit
  | 0 => failure
  | n + 1 => do
    if ← tryMarks "->" then typeUpTo n false

/-- A bound. -/
def boundUpTo : Nat → Reader Unit
  | 0 => failure
  | n + 1 => do
    if ← tryLifetime then return
    if ← tryWord "use" then angles
    else if ← tryNext (·.isGroup .paren) then return
    else
      let _ ← tryBinder
      let _ ← tryNext (·.isGroup .bracket)
      let _ ← tryMarks "~"
      let _ ← tryWord "const"
      let _ ← tryMarks "?"
      let _ ← tryBinder
      let _ ← typePathUpTo n

/-- A bound, and in a sum those that follow it. -/
def boundsUpTo : Nat → Bool → Reader Unit
  | 0, _ => failure
  | n + 1, sum => do
    boundUpTo n
    if sum then moreBoundsUpTo n

/-- The bounds after a plus, as far as there are any. -/
def moreBoundsUpTo : Nat → Reader Unit
  | 0 => failure
  | n + 1 => do
    if ← tryMarks "+" then
      if ← sees startsBound then boundsUpTo n true

end

/-- The bounds of a condition, at most so many; there may be none. -/
def conditionBoundsUpTo : Nat → Reader Unit
  | 0 => failure
  | n + 1 => do
    if !(← sees endsConditions) then
      boundUpTo n
      if ← tryMarks "+" then conditionBoundsUpTo n

/-- Conditions with commas between them, at most so many. -/
def conditionsUpTo : Nat → Reader Unit
  | 0 => failure
  | n + 1 => do
    if !(← sees endsConditions) then
      if !(← tryLifetime) then
        let _ ← tryBinder
        typeUpTo n true
      marks ":"
      conditionBoundsUpTo n
      if ← tryMarks "," then conditionsUpTo n

/-- A bound on the parts of whatever can be read from some trees. Every tree is entered by fewer
than eight nested readers. -/
def partBound (ts : List Tree) : Nat := 8 * (ts.length + 1)

/-- A type, with a sum of bounds at its end or without. -/
def type (sum : Bool) : Reader Unit := do
  typeUpTo (partBound (← get)) sum

/-- A path in a type. -/
def typePath : Reader PathForm := do
  typePathUpTo (partBound (← get))

/-- The arrow of a result and its type, if there is one. -/
def output : Reader Unit := do
  if ← tryMarks "->" then type true

/-- A clause of conditions, if there is one. -/
def conditions : Reader Unit := do
  if ← tryWord "where" then conditionsUpTo (partBound (← get))

end Delegation.Source.Grammar
