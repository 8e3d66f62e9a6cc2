import Delegation.Source.Fault
import Delegation.Source.Grammar.Types
import Delegation.Source.ImplBlock
/-!
# Reading implementation blocks

The implementation block that trees are written for. Its functions and the
types that it names are read part by part; any other item is kept as it is
written.
-/

namespace Delegation.Source

namespace Generics

/-- A generic parameter from its trees. -/
def param (ts : List Tree) : GenericParam :=
  let (declared, value) := splitAt (·.isMark '=') ts
  let (head, bounds) := splitAt (·.isMark ':') declared
  { lifetime := Tree.startsLifetime (Attribute.outer head).2
    head
    bounds := bounds.drop 1
    default := if value.isEmpty then none else some (value.drop 1) }

/-- The generic parameters at the start of trees, and the rest. -/
def read : List Tree → Generics × List Tree
  | .mark '<' _ :: ts =>
    let (inside, rest) := splitAngles ts
    ((Listed.ofTrees inside).map param, rest)
  | ts => (⟨[], false⟩, ts)

/-- Whether what follows the first name in angle brackets shows that generic parameters are
declared there. -/
def declares (ts : List Tree) : Bool :=
  !Tree.startsPathColons ts && ts.head?.any fun t =>
    t.isMark ':' || t.isMark ',' || t.isMark '>' || t.isMark '='

/-- Whether trees start with generic parameters and not with a type. -/
def starts : List Tree → Bool
  | .mark '<' _ :: .mark '\'' _ :: .word _ :: ts => declares ts
  | .mark '<' _ :: .mark c _ :: _ => c = '>' || c = '#'
  | .mark '<' _ :: .word w :: ts => w = "const" || (!isKeyword w && declares ts)
  | _ => false

end Generics

/-- A receiver from the trees of a first parameter, if they are one. After a colon it has a type,
which tells it from a path that starts with the same word. -/
def Receiver.ofTrees? (ts : List Tree) : Option Receiver :=
  let (attributes, ts) := Attribute.outer ts
  let (reference, ts) : Option (List Tree) × List Tree := match ts with
    | .mark '&' _ :: .mark '\'' _ :: .word l :: ts => (some [.alone '\'', .word l], ts)
    | .mark '&' _ :: ts => (some [], ts)
    | ts => (none, ts)
  let (mutable, ts) := match ts with
    | .word "mut" :: ts => (true, ts)
    | ts => (false, ts)
  match ts with
  | [.word "self"] => some ⟨attributes, reference, mutable, none, fun _ => rfl⟩
  | .word "self" :: .mark ':' _ :: type =>
    if reference.isNone && (Grammar.type true).takesAll type then
      some ⟨attributes, none, mutable, some type, nofun⟩
    else none
  | _ => none

/-- A typed parameter from its attributes, and its pattern and type. -/
def Param.ofPattern (attributes : List Attribute) (ts : List Tree) : Param :=
  let (pattern, type) := splitColon 0 none ts
  ⟨attributes, pattern, type.getD []⟩

/-- A typed parameter from its trees. A type that is a name with arguments may stand alone; it is
bound to nothing. -/
def Param.ofTrees (ts : List Tree) : Param :=
  match Attribute.outer ts with
  | (attributes, .word w :: .mark '<' joint :: ts) =>
    if isIdentifier w then ⟨attributes, [.word "_"], .word w :: .mark '<' joint :: ts⟩
    else ofPattern attributes (.word w :: .mark '<' joint :: ts)
  | (attributes, ts) => ofPattern attributes ts

/-- What stands between the parentheses of a function. -/
structure Inputs where
  /-- The receiver. -/
  receiver : Option Receiver
  /-- The typed parameters. -/
  params : List Param
  /-- What surplus arguments are taken by. -/
  variadic : Option (List Tree)

namespace Inputs

/-- Whether the trees of a parameter take surplus arguments: three points stand for its type, or
for the whole of it. -/
def isVariadic (ts : List Tree) : Bool :=
  let dots := Tree.startsMarks ['.', '.', '.']
  let ts := (Attribute.outer ts).2
  dots ts || (splitColon 0 none ts).2.any dots

/-- The receiver and the parameters from the entries between parentheses. -/
def ofEntries (entries : List (List Tree)) : Inputs :=
  let (surplus, others) := entries.partition isVariadic
  let receiver := others.head?.bind Receiver.ofTrees?
  { receiver
    params := (if receiver.isSome then others.drop 1 else others).map Param.ofTrees
    variadic := surplus.head? }

end Inputs

/-- A clause of conditions at the start of trees, without its first word, and the rest. -/
def splitConditions? (ts : List Tree) : Option (List Tree × List Tree) :=
  (Grammar.conditions.split? ts).map fun (clause, rest) => (clause.drop 1, rest)

namespace Function

/-- Whether a tree may stand before the word of a function. -/
def qualifies : Tree → Bool
  | .word w => ["pub", "default", "const", "async", "unsafe", "extern"].contains w
  | .literal _ | .group .paren _ => true
  | _ => false

/-- The function with a body at the start of trees, and the rest. -/
def ofTrees? (ts : List Tree) : Option (Function × List Tree) := do
  let (attributes, ts) := Attribute.outer ts
  let (qualifiers, ts) := ts.span qualifies
  let .word "fn" :: .word name :: ts := ts | none
  let (generics, .group .paren inputs :: ts) := Generics.read ts | none
  let (output, ts) ← Grammar.output.split? ts
  let (conditions, ts) ← splitConditions? ts
  let .group .brace inside :: ts := ts | none
  let listed := Listed.ofTrees inputs
  let { receiver, params, variadic } := Inputs.ofEntries listed.entries
  let (inner, body) := Attribute.leading inside
  return ({ attributes := attributes ++ inner, qualifiers, name, generics, receiver, params,
            variadic, trailing := listed.trailing, output, conditions, body }, ts)

end Function

/-- The type that is given a name at the start of trees, and the rest. -/
def TypeAlias.ofTrees? (ts : List Tree) : Option (TypeAlias × List Tree) := do
  let (attributes, ts) := Attribute.outer ts
  let (qualifiers, ts) := ts.span Function.qualifies
  let .word "type" :: .word name :: ts := ts | none
  let (generics, .mark '=' _ :: ts) := Generics.read ts | none
  let (type, ts) ← (Grammar.type true).split? ts
  let (conditions, ts) ← splitConditions? ts
  let .mark ';' _ :: ts := ts | none
  return ({ attributes, qualifiers, name, generics, type, conditions }, ts)

namespace BlockItem

/-- Takes a call of a macro that ends with braces. -/
def bracedCall : Reader Unit := do
  let path ← Grammar.path false
  if !path.plain || !(← Reader.sees Grammar.startsCall) then failure
  Reader.skip 1
  Reader.next (·.isBraced)

/-- The trees of an item that is neither a function with a body nor a type with a name, and the
rest. Such an item ends with a semicolon, if it is no call that ends with braces. -/
def splitOther (ts : List Tree) : List Tree × List Tree :=
  match bracedCall.split? (Attribute.outer ts).2 with
  | some (_, rest) => ts.splitAt (ts.length - rest.length)
  | none =>
    let rest := ts.dropWhile fun t => !t.isMark ';'
    (ts.takeWhile (fun t => !t.isMark ';') ++ rest.take 1, rest.drop 1)

/-- The first item, and the rest. -/
def read (ts : List Tree) : BlockItem × List Tree :=
  match Function.ofTrees? ts, TypeAlias.ofTrees? ts with
  | some (f, rest), _ => (.function f, rest)
  | none, some (a, rest) => (.typeAlias a, rest)
  | none, none =>
    let (written, rest) := splitOther ts
    (.other written, rest)

/-- All items. -/
def readAll (ts : List Tree) : List BlockItem :=
  if ts.isEmpty then []
  else
    let (item, rest) := read ts
    if rest.length < ts.length then item :: readAll rest else [.other ts]
termination_by ts.length

end BlockItem

namespace ImplBlock

/-- What stands between the generic parameters of a block and its body. -/
structure Header where
  /-- The trait that it implements, if it does. -/
  trait? : Option (List Tree)
  /-- The type it is about. -/
  type : List Tree
  /-- The conditions on its generic parameters. -/
  conditions : List Tree

/-- The header of a block at the start of trees, and the rest. Before a trait there may be an
exclamation mark. -/
def header? (ts : List Tree) : Option (Header × List Tree) := do
  let negative := match ts with
    | .mark '!' _ :: t :: _ => !t.isBraced
    | _ => false
  let (sign, ts) := if negative then ts.splitAt 1 else ([], ts)
  let (first, ts) ← (Grammar.type true).split? ts
  match ts with
  | .word "for" :: ts =>
    let (type, ts) ← (Grammar.type true).split? ts
    let (conditions, ts) ← splitConditions? ts
    return (⟨some (sign ++ first), type, conditions⟩, ts)
  | _ =>
    let (conditions, ts) ← splitConditions? ts
    return (⟨none, first, conditions⟩, ts)

/-- What stands before the word of a block, and the rest. -/
def splitQualifiers : List Tree → List Tree × List Tree
  | .word "default" :: .word "unsafe" :: ts => ([.word "default", .word "unsafe"], ts)
  | .word "default" :: ts => ([.word "default"], ts)
  | .word "unsafe" :: ts => ([.word "unsafe"], ts)
  | ts => ([], ts)

/-- An implementation block from its trees, or what they lack. -/
def ofTrees (ts : List Tree) : Except SyntaxFault ImplBlock :=
  let (attributes, ts) := Attribute.outer ts
  let (qualifiers, ts) := splitQualifiers ts
  match ts with
  | .word "impl" :: ts =>
    let (generics, ts) := if Generics.starts ts then Generics.read ts else (⟨[], false⟩, ts)
    match header? ts with
    | none => .error (.type ts.isEmpty)
    | some (header, [.group .brace inside]) =>
      let (inner, inside) := Attribute.leading inside
      .ok { attributes := attributes ++ inner, qualifiers, generics
            trait? := header.trait?
            type := header.type
            conditions := header.conditions
            items := BlockItem.readAll inside }
    | some (_, []) => .error (.braces true)
    | some (_, .group .brace _ :: _) => .error .leftover
    | some _ => .error (.braces false)
  | [] => .error (.block true)
  | _ => .error (.block false)

end ImplBlock

end Delegation.Source
