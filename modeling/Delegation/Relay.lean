import Delegation.Signature.Bind
/-!
# Relays

How a delegate hands a call on. A relay has the parameter list it declares and
the argument expression of the call it issues. The relay of a signature binds
the incoming arguments and spells every parameter again; the pass-through
relay hands every argument on untouched.
-/

namespace Delegation

/-- One element of the argument expression of the call that is handed on. -/
inductive Relay.Piece where
  /-- A bound parameter, by position. -/
  | positional (param : String)
  /-- A bound parameter, by keyword. -/
  | keyword (param : String)
  /-- All values given by position beyond the parameters. -/
  | spreadPositional (name : String)
  /-- All values given by keywords that name no parameter. -/
  | spreadKeywords (name : String)
  deriving DecidableEq, Repr

/-- The parameter list that a delegate declares. -/
inductive Relay.Outer where
  /-- Exactly the parameters of a signature. -/
  | declared (signature : Signature)
  /-- Any arguments at all. -/
  | variadic
  deriving DecidableEq

/-- A declared parameter list and the argument expression that hands a call on. -/
structure Relay where
  /-- What the delegate declares. -/
  outer : Relay.Outer
  /-- The argument expression of the call that is handed on. -/
  inner : List Relay.Piece
  deriving DecidableEq

namespace Relay

/-- The text of one element of an argument expression. -/
def Piece.display : Piece → String
  | positional param => param
  | keyword param => param ++ "=" ++ param
  | spreadPositional name => "*" ++ name
  | spreadKeywords name => "**" ++ name

/-- A parameter goes by position, one with a default by keyword unless values beyond the
parameters follow it. -/
def Piece.ofParameter (spread : Bool) (p : Parameter) : Piece :=
  if p.default.isSome && !spread then keyword p.name else positional p.name

/-- The relay that keeps a signature exactly. -/
def ofSignature (s : Signature) : Relay where
  outer := .declared s
  inner := s.params.map (Piece.ofParameter s.varargs.isSome) ++
    (s.varargs.map Piece.spreadPositional).toList ++ (s.varkw.map Piece.spreadKeywords).toList

/-- The relay that hands any arguments on untouched. -/
def passThrough : Relay where
  outer := .variadic
  inner := [.spreadPositional "args", .spreadKeywords "kw"]

/-- The text of an argument expression. -/
def expression (r : Relay) : String := String.intercalate ", " (r.inner.map Piece.display)

/-- The values that one element hands on by position. -/
def Piece.values (b : Binding) : Piece → List Value
  | positional param => (b.get? param).toList
  | keyword _ => []
  | spreadPositional _ => b.varargs
  | spreadKeywords _ => []

/-- Keywords, and those that one element adds to them. -/
def Piece.addKeywords (b : Binding) (keywords : NameMap Value) : Piece → NameMap Value
  | positional _ => keywords
  | keyword param =>
    match b.get? param with
    | some v => keywords.insert param v
    | none => keywords
  | spreadPositional _ => keywords
  | spreadKeywords _ => keywords ∪ b.varkw

/-- The arguments that an argument expression makes of a binding. -/
def Piece.arguments (pieces : List Piece) (b : Binding) : Arguments where
  positional := pieces.flatMap (Piece.values b)
  keywords := pieces.foldl (Piece.addKeywords b) ∅

/-- The arguments of the call that is handed on. -/
def prepare (r : Relay) (a : Arguments) : Except BindError Arguments :=
  match r.outer with
  | .declared s => (s.bind a).map (Piece.arguments r.inner)
  | .variadic => .ok a

/-- The relay of a signature refuses exactly what the signature refuses, for the same reason. -/
theorem prepare_ofSignature (s : Signature) (a : Arguments) :
    (ofSignature s).prepare a = (s.bind a).map (Piece.arguments (ofSignature s).inner) := rfl

/-- The pass-through relay changes nothing. -/
@[simp] theorem prepare_passThrough (a : Arguments) : passThrough.prepare a = .ok a := rfl

end Relay

end Delegation
