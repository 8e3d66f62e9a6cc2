import Delegation.Exposure.Generated
import Delegation.Source.Lexer
import Delegation.Source.Reading
/-!
# Expansion of blocks

A block of functions turned into a class: the block without its helper
attributes, and the class declaration that goes with it. A block that cannot
be exposed gives neither.
-/

namespace Delegation

open Source

/-- What a block is expanded to. -/
structure Expansion where
  /-- The block as it stays. -/
  block : ImplBlock
  /-- The class declaration. -/
  generated : GeneratedClass
  deriving Repr

namespace Expansion

/-- The class name that a type gives by itself: that of the last part, if the type is a path. -/
def typeName? (type : List Tree) : Option String :=
  match Grammar.typePath.run type with
  | (some path, []) => some (unraw path.last)
  | _ => none

/-- Exactly the paths give a class name. -/
theorem isSome_typeName? (type : List Tree) :
    (typeName? type).isSome = Grammar.typePath.takesAll type := by
  unfold typeName? Reader.takesAll
  generalize Grammar.typePath.run type = found
  match found with
  | (none, _) => rfl
  | (some _, []) => rfl
  | (some _, _ :: _) => rfl

variable (expression : ExpressionReader)

/-- The expansion of a block, under a given class name or that of its type. -/
def ofBlock (name : Option String) (b : ImplBlock) : Except ExposureFault Expansion :=
  if b.trait?.isSome then .error .traitBlock
  else
    match name.or (typeName? b.type) with
    | none => .error .unnamedType
    | some name =>
      (Capture.functions expression b.functions).map fun methods =>
        { block := b.withoutHelpers
          generated := { name, generics := b.generics, type := b.type,
                         conditions := b.conditions, methods } }

/-- The trees of source text. -/
def readTrees (source : String) : Except ExposureFault (List Tree) :=
  match trees? source with
  | some ts => .ok ts
  | none => .error (.unreadable .tokens)

/-- The class name that settings give: the last one counts. -/
def givenName? (settings : List (String × String)) : Option String :=
  settings.getLast?.map (·.2)

/-- The expansion of a block in source text, with the settings of its class. -/
def ofSource (settings block : String) : Except ExposureFault Expansion := do
  let settings ← SettingNames.read (.only "name") (← readTrees settings)
  match ImplBlock.ofTrees (← readTrees block) with
  | .error fault => .error (.unreadable fault)
  | .ok b => ofBlock expression (givenName? settings) b

/-- The trees of an expansion: those of the block, then those of the class declaration. -/
def trees (x : Expansion) : List Tree := x.block.trees ++ x.generated.trees

/-- The call that ends a compilation with a message. -/
def refusal (message : String) : List Tree :=
  Generated.path ["core", "compile_error"] ++
    [.alone '!', Generated.inBraces [Generated.text message]]

/-- What comes to stand in the place of a block. -/
def emitted : Except ExposureFault Expansion → List Tree
  | .ok x => x.trees
  | .error fault => refusal fault.message

end Expansion

end Delegation
