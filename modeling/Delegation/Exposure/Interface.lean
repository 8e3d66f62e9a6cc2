import Delegation.Renaming
import Delegation.Text.Identifier
/-!
# Interfaces of exposed methods

How a native method takes part in dynamic calls, whatever its types and
default values are written in. A parameter's role says both how the signature
declares it and where the body of a call reads it back from, so the two agree
parameter by parameter.
-/

namespace Delegation

/-- What a native parameter is to the signature. -/
inductive Role (δ : Type) where
  /-- A parameter that callers must give. -/
  | required
  /-- A parameter with a default. -/
  | default (value : δ)
  /-- It collects the values given by position beyond the parameters. -/
  | varargs
  /-- It collects the values given by keywords that name no parameter. -/
  | varkw
  deriving DecidableEq, Repr

/-- A parameter of a native method. -/
structure NativeParam (τ δ : Type) where
  /-- The identifier of the parameter. -/
  ident : String
  /-- Its static type. -/
  type : τ
  /-- What it is to the signature. -/
  role : Role δ
  deriving Repr

/-- One step in the declaration of a signature. -/
inductive Declaration (δ : Type) where
  /-- A parameter that callers must give. -/
  | param (name : String)
  /-- A parameter with a default. -/
  | paramDefault (name : String) (value : δ)
  /-- The parameter for surplus values given by position. -/
  | varargs (name : String)
  /-- The parameter for surplus keywords. -/
  | varkw (name : String)
  deriving DecidableEq, Repr

/-- Where the body of a call reads a parameter from. -/
inductive Origin where
  /-- The bound parameter of a name. -/
  | parameter (name : String)
  /-- The surplus values given by position. -/
  | surplus
  /-- The surplus keywords. -/
  | keywords
  deriving DecidableEq, Repr

/-- One step in the body of a call, which reads a parameter into a local name. -/
structure Extraction (τ : Type) where
  /-- The local name. -/
  target : String
  /-- The static type of what is read. -/
  type : τ
  /-- Where it is read from. -/
  origin : Origin
  deriving Repr

namespace NativeParam

variable {τ δ : Type}

/-- The name of a parameter in calls. -/
def name (p : NativeParam τ δ) : String := unraw p.ident

/-- How the signature declares a parameter. -/
def declaration (p : NativeParam τ δ) : Declaration δ :=
  match p.role with
  | .required => .param p.name
  | .default value => .paramDefault p.name value
  | .varargs => .varargs p.name
  | .varkw => .varkw p.name

/-- How the body of a call reads a parameter. -/
@[reducible] def extraction (p : NativeParam τ δ) : Extraction τ :=
  { target := p.ident
    type := p.type
    origin := match p.role with
      | .required | .default _ => .parameter p.name
      | .varargs => .surplus
      | .varkw => .keywords }

end NativeParam

/-- The interface of a native method. -/
structure MethodInterface (τ δ : Type) where
  /-- The identifier of the method. -/
  ident : String
  /-- Its parameters in order. -/
  params : List (NativeParam τ δ)
  /-- The old names of its parameters. -/
  renames : Renaming := .empty
  /-- Its documentation. -/
  doc : Option String := none
  deriving Repr

namespace MethodInterface

variable {τ δ : Type}

/-- The name of a method in calls. -/
def name (m : MethodInterface τ δ) : String := unraw m.ident

/-- The declarations that make the signature. -/
def declarations (m : MethodInterface τ δ) : List (Declaration δ) :=
  m.params.map NativeParam.declaration

/-- The steps that read the parameters in the body of a call. -/
def extractions (m : MethodInterface τ δ) : List (Extraction τ) :=
  m.params.map NativeParam.extraction

/-- The local names that the body hands to the native method. -/
def handedOn (m : MethodInterface τ δ) : List String := m.params.map (·.ident)

end MethodInterface

end Delegation
