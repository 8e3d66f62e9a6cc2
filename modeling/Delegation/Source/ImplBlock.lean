import Delegation.Source.Angles
import Delegation.Source.Attribute
/-!
# Implementation blocks

The parts of an implementation block and of its functions, and the trees they
are written as. Whatever has no part in the exposure of functions is kept as
trees: types, bounds, bodies and items that are no functions.
-/

namespace Delegation.Source

/-- A generic parameter. -/
structure GenericParam where
  /-- Whether it stands for a lifetime. -/
  lifetime : Bool
  /-- Its attributes and its name. -/
  head : List Tree
  /-- What it is bounded by. -/
  bounds : List Tree
  /-- Its default. -/
  default : Option (List Tree)
  deriving Repr, Inhabited

namespace GenericParam

/-- The trees of a generic parameter, with its default or without. -/
def trees (defaults : Bool) (p : GenericParam) : List Tree :=
  p.head ++ (if p.bounds.isEmpty then [] else .alone ':' :: p.bounds) ++
    match p.default with
    | some value => if defaults then .alone '=' :: value else []
    | none => []

end GenericParam

/-- Generic parameters. -/
abbrev Generics := Listed GenericParam

namespace Generics

/-- Every parameter and whether a comma follows it. -/
def marked : List GenericParam → Bool → List (GenericParam × Bool)
  | [], _ => []
  | [p], trailing => [(p, trailing)]
  | p :: q :: ps, trailing => (p, true) :: marked (q :: ps) trailing

/-- The trees of parameters, each with the comma that follows it. -/
def markedTrees (defaults : Bool) (ps : List (GenericParam × Bool)) : List Tree :=
  ps.flatMap fun (p, comma) => p.trees defaults ++ if comma then [.alone ','] else []

/-- The trees of generic parameters, with their defaults or without. Lifetimes come first; no
parameters are written as nothing. -/
def trees (defaults : Bool) (g : Generics) : List Tree :=
  if g.entries.isEmpty then []
  else
    let (lifetimes, others) := (marked g.entries g.trailing).partition (·.1.lifetime)
    let joined := others.isEmpty || lifetimes.getLast?.all (·.2)
    .alone '<' :: (markedTrees defaults lifetimes ++ (if joined then [] else [.alone ',']) ++
      markedTrees defaults others ++ [.alone '>'])

end Generics

/-- The receiver of a function. -/
structure Receiver where
  /-- Its attributes. -/
  attributes : List Attribute
  /-- The lifetime of a borrowed receiver, which may be left out; nothing if it is not borrowed. -/
  reference : Option (List Tree)
  /-- Whether it can be changed. -/
  mutable : Bool
  /-- Its type, if it is written. -/
  type : Option (List Tree)
  /-- No type is written for a borrowed receiver. -/
  untyped : reference.isSome = true → type = none
  deriving Repr

/-- The trees of a receiver. -/
def Receiver.trees (r : Receiver) : List Tree :=
  Attribute.allTrees r.attributes ++
    (match r.reference with
      | some lifetime => .alone '&' :: lifetime
      | none => []) ++
    (if r.mutable then [.word "mut"] else []) ++ .word "self" ::
    (match r.type with
      | some type => .alone ':' :: type
      | none => [])

/-- A typed parameter of a function. -/
structure Param where
  /-- Its attributes. -/
  attributes : List Attribute
  /-- The pattern that it is bound to. -/
  pattern : List Tree
  /-- Its type. -/
  type : List Tree
  deriving Repr, Inhabited

/-- The trees of a parameter. -/
def Param.trees (p : Param) : List Tree :=
  Attribute.allTrees p.attributes ++ p.pattern ++ .alone ':' :: p.type

/-- The trees of a clause of conditions, which is left out without conditions. -/
def whereTrees (conditions : List Tree) : List Tree :=
  if conditions.isEmpty then [] else .word "where" :: conditions

/-- A function with a body. -/
structure Function where
  /-- The attributes before it, then those inside its body. -/
  attributes : List Attribute
  /-- What stands before the word of a function: visibility and the like. -/
  qualifiers : List Tree
  /-- Its identifier. -/
  name : String
  /-- Its generic parameters. -/
  generics : Generics
  /-- Its receiver. -/
  receiver : Option Receiver
  /-- Its typed parameters. -/
  params : List Param
  /-- What surplus arguments are taken by, as it is written. -/
  variadic : Option (List Tree)
  /-- Whether a comma follows the last of them. -/
  trailing : Bool
  /-- The arrow and the type of its result, if it is written. -/
  output : List Tree
  /-- The conditions on its generic parameters. -/
  conditions : List Tree
  /-- Its body without the attributes inside. -/
  body : List Tree
  deriving Repr, Inhabited

namespace Function

/-- The receiver and the parameters, as they are written between parentheses. -/
def inputs (f : Function) : List Tree :=
  Listed.trees ⟨f.receiver.toList.map Receiver.trees ++ f.params.map Param.trees ++
    f.variadic.toList, f.trailing⟩

/-- The trees of a function. -/
def trees (f : Function) : List Tree :=
  Attribute.allTrees (f.attributes.filter fun a => !a.inner) ++ f.qualifiers ++
    .word "fn" :: .word f.name :: (Generics.trees true f.generics ++
      .group .paren f.inputs :: (f.output ++ whereTrees f.conditions ++
        [.group .brace (Attribute.allTrees (f.attributes.filter (·.inner)) ++ f.body)]))

/-- Whether a function is asynchronous. -/
def isAsync (f : Function) : Bool := f.qualifiers.any (·.isWord "async")

end Function

/-- A type that is given a name. -/
structure TypeAlias where
  /-- The attributes before it. -/
  attributes : List Attribute
  /-- What stands before the word of a type: visibility and the like. -/
  qualifiers : List Tree
  /-- Its name. -/
  name : String
  /-- Its generic parameters. -/
  generics : Generics
  /-- The type that it stands for. -/
  type : List Tree
  /-- The conditions on its generic parameters. -/
  conditions : List Tree
  deriving Repr, Inhabited

/-- The trees of a type that is given a name. -/
def TypeAlias.trees (a : TypeAlias) : List Tree :=
  Attribute.allTrees a.attributes ++ a.qualifiers ++ .word "type" :: .word a.name ::
    (Generics.trees true a.generics ++ .alone '=' :: (a.type ++ whereTrees a.conditions ++
      [.alone ';']))

/-- An item of an implementation block. -/
inductive BlockItem where
  /-- A function with a body. -/
  | function (f : Function)
  /-- A type that is given a name. -/
  | typeAlias (a : TypeAlias)
  /-- Any other item. -/
  | other (written : List Tree)
  deriving Repr, Inhabited

/-- The trees of an item. -/
def BlockItem.trees : BlockItem → List Tree
  | function f => f.trees
  | typeAlias a => a.trees
  | other written => written

/-- An implementation block. -/
structure ImplBlock where
  /-- The attributes before it, then those inside it. -/
  attributes : List Attribute
  /-- What stands before the word of an implementation. -/
  qualifiers : List Tree
  /-- Its generic parameters. -/
  generics : Generics
  /-- The trait that it implements, if it does. -/
  trait? : Option (List Tree)
  /-- The type it is about. -/
  type : List Tree
  /-- The conditions on its generic parameters. -/
  conditions : List Tree
  /-- Its items in order. -/
  items : List BlockItem
  deriving Repr, Inhabited

namespace ImplBlock

/-- The trees of an implementation block. -/
def trees (b : ImplBlock) : List Tree :=
  Attribute.allTrees (b.attributes.filter fun a => !a.inner) ++ b.qualifiers ++
    .word "impl" :: (Generics.trees true b.generics ++
      (match b.trait? with
        | some t => t ++ [.word "for"]
        | none => []) ++ b.type ++ whereTrees b.conditions ++
      [.group .brace (Attribute.allTrees (b.attributes.filter (·.inner)) ++
        b.items.flatMap BlockItem.trees)])

/-- The functions of a block in order. -/
def functions (b : ImplBlock) : List Function :=
  b.items.filterMap fun
    | .function f => some f
    | _ => none

end ImplBlock

end Delegation.Source
