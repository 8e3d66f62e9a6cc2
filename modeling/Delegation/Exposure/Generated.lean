import Delegation.Exposure.Capture
/-!
# Generated classes

The class declaration that is written for a block: for every exposed function
a signature made by declarations, a body that reads the parameters and hands
them on, and what callers may want to know of it.
-/

namespace Delegation

open Source

/-- The parts of a class declaration. -/
structure GeneratedClass where
  /-- The name of the class. -/
  name : String
  /-- The generic parameters of the block. -/
  generics : Generics
  /-- The type that is exposed. -/
  type : List Tree
  /-- The conditions on the generic parameters. -/
  conditions : List Tree
  /-- The exposed methods in order. -/
  methods : List CapturedMethod
  deriving Repr

namespace Generated

/-- A word. -/
def word (text : String) : Tree := .word text

/-- A text literal. -/
def text (s : String) : Tree := .literal (Literal.ofText s)

/-- Trees between parentheses. -/
def inParens (ts : List Tree) : Tree := .group .paren ts

/-- Trees between braces. -/
def inBraces (ts : List Tree) : Tree := .group .brace ts

/-- Trees between angle brackets. -/
def inAngles (ts : List Tree) : List Tree := .alone '<' :: (ts ++ [.alone '>'])

/-- A path from the root. -/
def path (segments : List String) : List Tree :=
  segments.flatMap fun s => [.alone ':', .alone ':', .word s]

/-- A path in the library of the generated code. -/
def library (segments : List String) : List Tree := path ("facade" :: segments)

/-- The type of an outcome. -/
def outcome (value fault : List Tree) : List Tree :=
  path ["core", "result", "Result"] ++ inAngles (value ++ .alone ',' :: fault)

/-- A call of a method. -/
def calling (method : String) (args : List Tree) : List Tree :=
  [.alone '.', word method, inParens args]

/-- The declaration of a local name. -/
def binding (name : Tree) (type value : List Tree) : List Tree :=
  word "let" :: name :: ((if type.isEmpty then [] else .alone ':' :: type) ++
    .alone '=' :: (value ++ [.alone ';']))

/-- A declaration in the making of a signature. -/
def declaration : Declaration (Option (List Tree)) → List Tree
  | .param name => calling "param" [text name]
  | .paramDefault name value =>
    calling "param_default" (text name :: .alone ',' :: value.getD (library ["Value", "None"]))
  | .varargs name => calling "varargs" [text name]
  | .varkw name => calling "varkw" [text name]

/-- The conversion of a value made from a part of the binding. -/
def converted (type : List Tree) (constructor : String) (part : List Tree) : List Tree :=
  inAngles (type ++ word "as" :: library ["FromValue"]) ++ path ["from_value"] ++
    [inParens (library ["Value", constructor] ++ [inParens (word "__bound" :: part), .alone ',']),
      .alone '?']

/-- A step that reads a parameter. -/
def extraction (e : Extraction (List Tree)) : List Tree :=
  binding (word e.target) e.type <|
    match e.origin with
    | .parameter name =>
      [word "__bound", .alone '.', word "extract", .alone ':', .alone ':'] ++ inAngles e.type ++
        [inParens [text name], .alone '?']
    | .surplus => converted e.type "List" (calling "varargs" [] ++ calling "to_vec" [])
    | .keywords => converted e.type "Map" (calling "varkw" [] ++ calling "clone" [])

/-- The signature of a method. -/
def signature (m : CapturedMethod) : List Tree :=
  binding (word "__signature") [] <|
    library ["MethodSignature", "builder"] ++ inParens [text m.name] ::
      (m.declarations.flatMap declaration ++ calling "build" [] ++ [.alone '?'])

/-- The native value, the parameters, and the call of the native method. -/
def body (type : List Tree) (m : CapturedMethod) : List Tree :=
  binding (word "__this") []
      ([word "__instance", .alone '.', word "require_payload", .alone ':', .alone ':'] ++
        inAngles type ++ [inParens [], .alone '?']) ++
    m.extractions.flatMap extraction ++
    library ["IntoReturn", "into_return"] ++
      [inParens (word "__this" :: calling m.ident
        ([Tree.alone ','].intercalate (m.handedOn.map fun ident => [word ident])))]

/-- The closure that runs a method. -/
def closure (type : List Tree) (m : CapturedMethod) : List Tree :=
  .alone '|' :: word "__instance" :: .alone ':' :: .alone '&' :: library ["Instance"] ++
    .alone ',' :: word "__bound" :: .alone ':' :: .alone '&' :: library ["BoundArguments"] ++
    .alone '|' :: .alone '-' :: .alone '>' ::
      outcome (library ["Value"]) (library ["BoxError"]) ++ [inBraces (body type m)]

/-- The old names of a method's parameters, if there are any. -/
def renames (r : Renaming) : List Tree :=
  if r.isEmpty then []
  else
    calling "with_legacy_names" (library ["LegacyNames", "new"] ++ inParens [] ::
      r.rules.flatMap fun (old, new) => calling "rule" [text old, .alone ',', text new])

/-- The documentation of a method, if there is any. -/
def documentation (doc : Option String) : List Tree :=
  match doc with
  | some doc => calling "with_doc" [text doc]
  | none => []

/-- The declaration of a method. -/
def method (type : List Tree) (m : CapturedMethod) : List Tree :=
  binding (word "__builder") [] <|
    word "__builder" :: calling "method"
      [text m.name, .alone ',',
        inBraces (signature m ++ library ["Method", "from_body"] ++
          inParens (word "__signature" :: .alone ',' :: (closure type m ++ [.alone ','])) ::
            (renames m.renames ++ documentation m.doc))]

end Generated

namespace GeneratedClass

open Generated

/-- The trees of a class declaration. -/
def trees (g : GeneratedClass) : List Tree :=
  word "impl" :: (Generics.trees false g.generics ++ library ["ProxyClass"] ++ word "for" ::
    (g.type ++ whereTrees g.conditions ++
      [inBraces (word "fn" :: word "class_builder" :: inParens [] :: .alone '-' :: .alone '>' ::
        (outcome (library ["ClassBuilder"]) (library ["ClassError"]) ++
          [inBraces (
            binding (word "__builder") []
              (library ["Class", "builder"] ++ [inParens [text g.name]]) ++
            g.methods.flatMap (method g.type) ++
            path ["core", "result", "Result", "Ok"] ++ [inParens [word "__builder"]])]))]))

end GeneratedClass

end Delegation
