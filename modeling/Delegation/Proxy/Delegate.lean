import Delegation.Call
import Delegation.Relay
/-!
# Delegates

Free-standing callables that hand calls on to a method of whatever instance is
active where they stand. A delegate declares the parameters of the method it
was made from; if that method has renamed parameters it takes any arguments
and renames the keywords before it hands the call on.
-/

namespace Delegation

/-- A callable that hands calls on to the active instance. -/
structure Delegate where
  /-- The name of the class it was made for. -/
  className : String
  /-- The name it is called by, and the name of the member it calls. -/
  name : String
  /-- The signature of the method it was made from. -/
  signature : Signature
  /-- The old names of that method's parameters. -/
  renames : Renaming
  /-- How it hands arguments on. -/
  relay : Relay
  /-- The documentation of that method. -/
  doc : Option String
  deriving DecidableEq

namespace Delegate

/-- The delegate for a method under a name. -/
def ofMethod (className name : String) (m : Method) : Delegate where
  className
  name
  signature := m.signature
  renames := m.renames
  relay := if m.renames.isEmpty then .ofSignature m.signature else .passThrough
  doc := m.doc

/-- The arguments that are handed on: those that the relay makes, renamed if there are rules. -/
def prepare (d : Delegate) (a : Arguments) : Except CallError Arguments :=
  match d.relay.prepare a with
  | .error e => .error (.binding e)
  | .ok prepared =>
    if d.renames.isEmpty then .ok prepared
    else (d.renames.adapt d.signature prepared).mapError .uncovered

/-- A call of a delegate, given how methods run. Its arguments are looked at first, the active
instance after. -/
def callVia (run : Runner) (d : Delegate) (w : World) (active : Option InstanceId)
    (a : Arguments) : World × Except CallError Value :=
  match d.prepare a with
  | .error e => (w, .error e)
  | .ok handed =>
    match active with
    | none => (w, .error (.notEstablished d.className d.name))
    | some i => w.callVia run i d.name handed

/-- A call of a delegate. -/
def call (d : Delegate) (w : World) (active : Option InstanceId) (a : Arguments) :
    World × Except CallError Value :=
  d.callVia (World.run w.depth) w active a

/-- A delegate for a method has the name it was made for. -/
@[simp] theorem name_ofMethod (className name : String) (m : Method) :
    (ofMethod className name m).name = name := rfl

end Delegate

end Delegation
