import Delegation.Proofs.Locals
/-!
# Generated signatures and generated bodies agree

For every block that is expanded the declarations of a method's signature, the
steps of its body and the names in its call go along the parameters of the
function, in step. So once the signature can be made, a call that binds to it
never misses a parameter: either the native method is handed what each
parameter's own value is read as, or the first value that cannot be read
decides, and nothing was done.
-/

namespace Delegation

open Source

/-- A declaration of a name and what it is read from are those of a role. -/
inductive Role.Agrees {δ : Type} (name : String) : Role δ → Declaration δ → Origin → Prop where
  /-- What callers must give is read from the parameter of the name. -/
  | required : Agrees name .required (.param name) (.parameter name)
  /-- So is what has a default. -/
  | default (value : δ) : Agrees name (.default value) (.paramDefault name value) (.parameter name)
  /-- Collected values are read from what was given by position beyond the parameters. -/
  | varargs : Agrees name .varargs (.varargs name) .surplus
  /-- Collected keywords are read from those that name no parameter. -/
  | varkw : Agrees name .varkw (.varkw name) .keywords

/-- A parameter's declaration and the step that reads it are those of its role. -/
theorem NativeParam.agrees {τ δ : Type} (p : NativeParam τ δ) :
    p.role.Agrees p.name p.declaration p.extraction.origin := by
  obtain ⟨ident, type, role⟩ := p
  cases role with
  | required => exact .required
  | default value => exact .default value
  | varargs => exact .varargs
  | varkw => exact .varkw

/-- Declarations, steps and handed names go along parameters: one of each for every parameter, all
by its identifier and its role. -/
inductive Capture.InStep (expression : ExpressionReader) : List Param →
    List (Declaration (Option (List Tree))) → List (Extraction (List Tree)) → List String →
    Prop where
  /-- No parameters. -/
  | nil : InStep expression [] [] [] []
  /-- One more parameter at the start. -/
  | cons {p : Param} {ident : String} {role : Role (Option (List Tree))}
      {declaration : Declaration (Option (List Tree))} {origin : Origin} {ps : List Param}
      {declarations : List (Declaration (Option (List Tree)))}
      {extractions : List (Extraction (List Tree))} {handed : List String}
      (pattern : IdentifierPattern p.pattern ident)
      (given : GivesRole expression p.attributes role)
      (agrees : role.Agrees (unraw ident) declaration origin)
      (rest : InStep expression ps declarations extractions handed) :
      InStep expression (p :: ps) (declaration :: declarations)
        (⟨ident, p.type, origin⟩ :: extractions) (ident :: handed)

namespace NativeParam

end NativeParam

namespace ExposedMethod

section Run

variable {e : ExposedMethod} {i : InstanceId} {b : Binding} {w : World} {content : e.type.Content}

end Run

end ExposedMethod

/-- The role of a native parameter is a captured one: where that has a default there is a value for
it, and for a default that is left out the absent value. -/
inductive Role.Realizes : Role Value → Role (Option (List Tree)) → Prop where
  /-- What callers must give. -/
  | required : Realizes .required .required
  /-- A default that is left out. -/
  | absent : Realizes (.default .none) (.default none)
  /-- A default that is an expression, which has some value. -/
  | value (v : Value) (expression : List Tree) : Realizes (.default v) (.default (some expression))
  /-- What collects values given by position. -/
  | varargs : Realizes .varargs .varargs
  /-- What collects keywords. -/
  | varkw : Realizes .varkw .varkw

/-- An exposed method is what a captured one says, with any static types and any values of the
defaults. Its body can be compiled: the local names are identifiers, and none takes the place of
what the body still needs. -/
structure ExposedMethod.Realizes (e : ExposedMethod) (m : CapturedMethod) : Prop where
  /-- It has the same identifier. -/
  ident : e.ident = m.ident
  /-- Its parameters have the same identifiers and roles. -/
  params : List.Forall₂ (fun p c => p.ident = c.ident ∧ p.role.Realizes c.role) e.params m.params
  /-- Its local names are identifiers. -/
  identifiers : ∀ p ∈ e.params, isIdentifier p.ident = true
  /-- Its body finds the native value and the binding. -/
  resolved : e.toMethodInterface.Scoped

namespace ExposedMethod.Realizes

variable {e : ExposedMethod} {m : CapturedMethod}

end ExposedMethod.Realizes

namespace Expansion

end Expansion

end Delegation
