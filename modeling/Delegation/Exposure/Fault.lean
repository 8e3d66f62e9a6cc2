import Delegation.Source.Fault
/-!
# Faults of an exposure

Why a block of functions cannot be exposed as a class. Each cause has one
wording.
-/

namespace Delegation

/-- Why a block cannot be exposed. -/
inductive ExposureFault where
  /-- Source text cannot be read. -/
  | unreadable (fault : Source.SyntaxFault)
  /-- An attribute has an argument that it does not know. -/
  | unknownArgument (name : String)
  /-- The block implements a trait. -/
  | traitBlock
  /-- No name is given, and the type has none. -/
  | unnamedType
  /-- A receiver is not plainly borrowed. -/
  | receiver
  /-- A function is asynchronous. -/
  | asynchronous
  /-- A function has generic parameters. -/
  | generic
  /-- A parameter is bound to a pattern that is no identifier. -/
  | pattern
  /-- A parameter's type is a reference. -/
  | reference
  /-- An attribute has no arguments. -/
  | withoutArguments (inner : Bool) (helper : String)
  /-- An attribute has a value for its arguments. -/
  | assignedArguments (inner : Bool) (helper : String)
  /-- An attribute says more than one role. -/
  | manyRoles
  /-- A parameter has a role more than once. -/
  | repeatedRole
  /-- Two parameters collect surplus values given by position. -/
  | duplicateVarargs
  /-- Two parameters collect surplus keywords. -/
  | duplicateVarkw
  deriving DecidableEq, Repr

namespace ExposureFault

/-- The mark that starts an attribute. -/
def attributeMark (inner : Bool) : String := if inner then "#!" else "#"

/-- The wording of a fault. -/
def message : ExposureFault → String
  | unreadable fault => fault.message
  | unknownArgument name => "unknown attribute: " ++ name
  | traitBlock => "#[class] must be placed on an inherent impl block"
  | unnamedType => "cannot derive a class name for this type; use #[class(name = \"...\")]"
  | receiver => "exposed methods must take `&self`"
  | asynchronous => "exposed methods cannot be async"
  | generic => "exposed methods cannot be generic"
  | pattern => "exposed method parameters must be plain identifiers"
  | reference => "exposed method parameters must be owned types"
  | withoutArguments inner helper =>
    "expected attribute arguments in parentheses: " ++ attributeMark inner ++ "[" ++ helper ++
      "(...)]"
  | assignedArguments inner helper =>
    "expected parentheses: " ++ attributeMark inner ++ "[" ++ helper ++ "(...)]"
  | manyRoles => "expected a single `default`, `varargs` or `varkw`"
  | repeatedRole => "a parameter takes at most one #[arg(...)]"
  | duplicateVarargs => "duplicate `varargs` parameter"
  | duplicateVarkw => "duplicate `varkw` parameter"

end ExposureFault

end Delegation
