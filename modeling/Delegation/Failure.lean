import Delegation.Text.Quoted
/-!
# Failures

What can go wrong, each cause with its data, and one wording for each. A
`Cause` is any error that another error may stand on: a method's failure keeps
the cause its script ended with, and a custom failure is nothing but its
cause. `Cause.source?` steps from an error to the one it stands on and
`Cause.sources` lists all of them; `Cause.sources_eq` says that the list is
what repeated stepping gives.
-/

namespace Delegation

/-- A value that cannot be read as the wanted type. -/
inductive ConversionError where
  /-- The value has another type. -/
  | mismatch (expected found : String)
  /-- There is no bound argument of that name. -/
  | missing (name : String)
  deriving DecidableEq, Repr

/-- Arguments that do not fit a signature. -/
inductive BindError where
  /-- More positional arguments than parameters, and nothing collects the rest. -/
  | tooManyPositional (function : String) (expected given : Nat)
  /-- A parameter is given by position and by keyword. -/
  | multipleValues (function param : String)
  /-- A keyword names no parameter, and nothing collects the rest. -/
  | unexpectedKeyword (function keyword : String)
  /-- A parameter without a default is not given. -/
  | missingArgument (function param : String)
  deriving DecidableEq, Repr

/-- After renaming, a required parameter is given neither by keyword nor by position. -/
structure CoverageError where
  /-- The parameter that nothing covers. -/
  param : String
  deriving DecidableEq, Repr

/-- A parameter list that is no signature. -/
inductive SignatureFault where
  /-- A parameter without a default comes after one with a default. -/
  | requiredAfterDefault (param : String)
  /-- Two parameters have one name. -/
  | duplicate (param : String)
  /-- Both collecting parameters have one name. -/
  | sharedSinkName
  deriving DecidableEq, Repr

/-- A class that cannot be declared. -/
inductive DeclarationError where
  /-- The bases allow no order of ancestors. -/
  | noAncestorOrder (className : String)
  /-- A method's parameter list is no signature. -/
  | invalidSignature (function reason : String)
  deriving DecidableEq, Repr

/-- Misuse of a registry. -/
inductive RegistryError where
  /-- The handle is not one of this registry. -/
  | unknownScope (index : Nat)
  deriving DecidableEq, Repr

/-- Failures of a dispatch table. -/
inductive DispatchError where
  /-- There is a handler for the class and qualifier already. -/
  | duplicate (className qualifier : String)
  /-- No ancestor has a handler for the qualifier or by default. -/
  | unresolved (className qualifier : String)
  deriving DecidableEq, Repr

mutual

/-- A call that did not return. -/
inductive CallError where
  /-- A delegate was called while its scope has no active instance. -/
  | notEstablished (className member : String)
  /-- After renaming, a required parameter is covered by nothing. -/
  | uncovered (error : CoverageError)
  /-- The arguments do not fit the signature. -/
  | binding (error : BindError)
  /-- A value cannot be read as the wanted type. -/
  | conversion (error : ConversionError)
  /-- The scope has no delegate of that name. -/
  | unknownName (scope name : String)
  /-- The class has no member of that name. -/
  | noSuchMember (className member : String)
  /-- The member is an attribute. -/
  | notCallable (className member : String)
  /-- The instance carries no native value of the wanted type. -/
  | missingPayload (className expected : String)
  /-- The method was entered and failed. -/
  | method (member : String) (source : Cause)
  deriving DecidableEq, Repr

/-- An error that another one may stand on. -/
inductive Cause where
  /-- An error that is only its text. -/
  | plain (text : String)
  /-- A count beyond the integers that values hold. -/
  | countTooLarge
  /-- A chain of calls that comes to no end. -/
  | endless
  /-- A value cannot be read as the wanted type. -/
  | conversion (error : ConversionError)
  /-- A registry was misused. -/
  | registry (error : RegistryError)
  /-- A dispatch table failed. -/
  | dispatch (error : DispatchError)
  /-- A class could not be declared. -/
  | declaration (error : DeclarationError)
  /-- A call failed. -/
  | call (error : CallError)
  /-- Any failure of the library. -/
  | failure (error : Failure)
  deriving DecidableEq, Repr

/-- Any failure of the library. -/
inductive Failure where
  /-- A call failed. -/
  | call (error : CallError)
  /-- A registry was misused. -/
  | registry (error : RegistryError)
  /-- A dispatch table failed. -/
  | dispatch (error : DispatchError)
  /-- A class could not be declared. -/
  | declaration (error : DeclarationError)
  /-- A failure that is nothing but its cause. -/
  | custom (cause : Cause)
  deriving DecidableEq, Repr

end

/-- The wording of a conversion error. -/
def ConversionError.message : ConversionError → String
  | .mismatch expected found => "expected " ++ expected ++ ", found " ++ found
  | .missing name => "no bound argument named '" ++ name ++ "'"

/-- The wording of a binding error. -/
def BindError.message : BindError → String
  | .tooManyPositional f expected given =>
    f ++ "() takes " ++ toString expected ++ " positional arguments but " ++ toString given ++
      " were given"
  | .multipleValues f param => f ++ "() got multiple values for argument '" ++ param ++ "'"
  | .unexpectedKeyword f keyword =>
    f ++ "() got an unexpected keyword argument '" ++ keyword ++ "'"
  | .missingArgument f param => f ++ "() missing required argument: '" ++ param ++ "'"

/-- The wording of a coverage error. -/
def CoverageError.message (e : CoverageError) : String :=
  "missing required positional argument: " ++ e.param

/-- The wording of a fault in a parameter list. -/
def SignatureFault.message : SignatureFault → String
  | .requiredAfterDefault param =>
    "parameter '" ++ param ++ "' without a default follows a defaulted parameter"
  | .duplicate param => "duplicate parameter '" ++ param ++ "'"
  | .sharedSinkName => "variadic sinks share a name"

/-- The wording of a declaration error. -/
def DeclarationError.message : DeclarationError → String
  | .noAncestorOrder className =>
    "cannot create a consistent ancestor chain for class '" ++ className ++ "'"
  | .invalidSignature function reason =>
    "invalid signature for " ++ function ++ "(): " ++ reason

/-- The wording of a registry error. -/
def RegistryError.message : RegistryError → String
  | .unknownScope index => "no scope with id " ++ toString index

/-- The wording of a dispatch error. -/
def DispatchError.message : DispatchError → String
  | .duplicate className qualifier =>
    "a handler is already registered for (" ++ className ++ ", " ++ Quoted.quote qualifier ++ ")"
  | .unresolved className qualifier =>
    "no dispatch function for object of type '" ++ className ++ "' (qualifier " ++
      Quoted.quote qualifier ++ ")"

mutual

/-- The wording of a call error. -/
def CallError.message : CallError → String
  | .notEstablished className member =>
    "can't invoke function '" ++ member ++
      "', as the proxy object has not yet been established for the '" ++ className ++
      "' class; try placing this code inside a callable"
  | .uncovered e => e.message
  | .binding e => e.message
  | .conversion e => e.message
  | .unknownName scope name => "name '" ++ name ++ "' is not defined in scope '" ++ scope ++ "'"
  | .noSuchMember className member =>
    "'" ++ className ++ "' object has no attribute '" ++ member ++ "'"
  | .notCallable className member => "'" ++ className ++ "." ++ member ++ "' is not callable"
  | .missingPayload className expected =>
    "'" ++ className ++ "' instance does not carry a `" ++ expected ++ "` payload"
  | .method member source => "method '" ++ member ++ "' failed: " ++ source.message

/-- The wording of a cause. -/
def Cause.message : Cause → String
  | .plain text => text
  | .countTooLarge => "number too large to fit in target type"
  | .endless => "the call comes to no end"
  | .conversion e => e.message
  | .registry e => e.message
  | .dispatch e => e.message
  | .declaration e => e.message
  | .call e => e.message
  | .failure e => e.message

/-- The wording of a failure. -/
def Failure.message : Failure → String
  | .call e => "call error: " ++ e.message
  | .registry e => "registry error: " ++ e.message
  | .dispatch e => "dispatch error: " ++ e.message
  | .declaration e => "class error: " ++ e.message
  | .custom c => c.message

end

/-- The error that a call error stands on. Call errors that only pass another error on stand on
what that one stands on, which is nothing. -/
def CallError.source? : CallError → Option Cause
  | .method _ source => some source
  | _ => none

mutual

/-- The error that a cause stands on. -/
def Cause.source? : Cause → Option Cause
  | .call e => e.source?
  | .failure e => e.source?
  | _ => none

/-- The error that a failure stands on. A custom failure only passes its cause on. -/
def Failure.source? : Failure → Option Cause
  | .call e => some (.call e)
  | .registry e => some (.registry e)
  | .dispatch e => some (.dispatch e)
  | .declaration e => some (.declaration e)
  | .custom c => c.source?

end

mutual

/-- All errors below a call error, the nearest first. -/
def CallError.sources : CallError → List Cause
  | .method _ source => source :: source.sources
  | _ => []

/-- All errors below a cause, the nearest first. -/
def Cause.sources : Cause → List Cause
  | .call e => e.sources
  | .failure e => e.sources
  | _ => []

/-- All errors below a failure, the nearest first. -/
def Failure.sources : Failure → List Cause
  | .call e => .call e :: e.sources
  | .registry e => [.registry e]
  | .dispatch e => [.dispatch e]
  | .declaration e => [.declaration e]
  | .custom c => c.sources

end

/-- The errors below a call error are the one it stands on and those below that one. -/
theorem CallError.sources_eq (e : CallError) :
    e.sources = e.source?.elim [] fun s => s :: s.sources := by
  cases e <;> simp [CallError.sources, CallError.source?]

mutual

/-- The errors below a cause are the one it stands on and those below that one. -/
theorem Cause.sources_eq (c : Cause) :
    c.sources = c.source?.elim [] fun s => s :: s.sources := by
  match c with
  | .call e => simpa [Cause.sources, Cause.source?] using e.sources_eq
  | .failure e => simpa [Cause.sources, Cause.source?] using e.sources_eq
  | .plain _ | .countTooLarge | .endless | .conversion _ | .registry _ | .dispatch _
  | .declaration _ => simp [Cause.sources, Cause.source?]

/-- The errors below a failure are the one it stands on and those below that one. -/
theorem Failure.sources_eq (e : Failure) :
    e.sources = e.source?.elim [] fun s => s :: s.sources := by
  match e with
  | .custom c => simpa [Failure.sources, Failure.source?] using c.sources_eq
  | .call _ | .registry _ | .dispatch _ | .declaration _ =>
    simp [Failure.sources, Failure.source?, Cause.sources]

end

end Delegation
