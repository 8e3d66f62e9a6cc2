import Delegation.Signature.Bind
import Delegation.World
/-!
# Calls

How a method of an instance is called: the name is resolved for the
instance's class, the arguments are bound to the method's signature, and the
method's script runs on the binding. A script may call further methods of the
same instance. Such a chain of calls can only go on by naming another method,
by filling a parameter or by using up a keyword, unless it repeats itself for
ever; `World.depth` is more than it can do otherwise, and a chain longer than
that is endless.
-/

namespace Delegation

/-- What running a method on bound arguments does to the world, and what it ends with. -/
abbrev Runner := Method → InstanceId → Binding → World → World × Except Cause Value

namespace Method

/-- One call of a method: its arguments are bound, then it runs. A failure of the run is the
method's failure. -/
def invoke (run : Runner) (m : Method) (i : InstanceId) (a : Arguments) (w : World) :
    World × Except CallError Value :=
  match m.signature.bind a with
  | .error e => (w, .error (.binding e))
  | .ok b =>
    let done := run m i b w
    (done.1, done.2.mapError (.method m.signature.name))

end Method

namespace Binding

/-- The parts of a binding's text: each parameter with its value, then what was collected. -/
def parts (b : Binding) : List (List Char) :=
  b.params.map (fun e => e.1.toList ++ '=' :: e.2.displayChars) ++
  (if b.varargs.isEmpty then [] else ['*' :: (Value.list b.varargs).displayChars]) ++
  (if b.varkw.isEmpty then [] else ['*' :: '*' :: (Value.ofMap b.varkw).displayChars])

/-- The text that shows what was bound for a method. -/
def describe (b : Binding) (method : String) : String :=
  String.ofList (applied method (commaSeparated b.parts))

/-- The arguments that hand a binding on: its parameters and what was collected by position, and
what was collected by keyword. -/
def again (b : Binding) : Arguments := ⟨b.params.map (·.2) ++ b.varargs, b.varkw⟩

/-- The journal entry for a binding. -/
def entry (b : Binding) (method className : String) : RecordedCall :=
  ⟨method, className, .ofEntries b.params, b.varargs, b.varkw⟩

end Binding

namespace World

/-- A call of a member of an instance, given how methods run. -/
def callVia (run : Runner) (w : World) (i : InstanceId) (name : String) (a : Arguments) :
    World × Except CallError Value :=
  match (w.classOf? i).bind fun c => w.hierarchy.lookup? c name with
  | some (.method m) => m.invoke run i a w
  | some (.attribute _) => (w, .error (.notCallable (w.className i) name))
  | none => (w, .error (.noSuchMember (w.className i) name))

/-- One run of a native method on the native value that an instance carries. -/
def runNative (n : NativeBody) (i : InstanceId) (b : Binding) (w : World) :
    World × Except Cause Value :=
  match w.requirePayload i n.type with
  | .error e => (w, .error (.call e))
  | .ok content =>
    let done := n.run content b
    (w.setPayload i ⟨n.type, done.1⟩, done.2)

/-- Runs a method's script; calls inside it may be nested up to a depth. -/
def run : Nat → Runner
  | 0, _, _, _, w => (w, .error .endless)
  | depth + 1, m, i, b, w =>
    match m.script with
    | .describe => (w, .ok (.str (b.describe m.signature.name)))
    | .record journal v => (w.record journal (b.entry m.signature.name (w.className i)), .ok v)
    | .answer v => (w, .ok v)
    | .attribute name => (w, .ok ((w.attribute? i name).getD .none))
    | .fail text => (w, .error (.plain text))
    | .extract param s => (w, ((b.extract s param).map s.toValue).mapError .conversion)
    | .call name =>
      let done := w.callVia (run depth) i name b.again
      (done.1, done.2.mapError .call)
    | .payload type => (w, ((w.requirePayload i type).map type.shape.toValue).mapError .call)
    | .assign name v =>
      (((w.classOf? i).map fun c => w.setMember c name (.attribute v)).getD w, .ok .none)
    | .native n => w.runNative n i b

/-- The number of parameters of a member. -/
def width : Member → Nat
  | .method m => m.signature.params.length
  | .attribute _ => 0

/-- More calls than a chain of nested calls can hold without repeating itself. -/
def depth (w : World) : Nat :=
  let members := w.hierarchy.classes.flatMap fun c => c.members.values
  (members.length + 1) * (2 * (members.map width).foldr (· + ·) 0 + 2)

/-- A call of a member of an instance. -/
def callMethod (w : World) (i : InstanceId) (name : String) (a : Arguments) :
    World × Except CallError Value :=
  w.callVia (run w.depth) i name a

end World

namespace ExposedMethod

/-- The member that exposes a native method, or the fault of its parameter list. -/
def member (m : ExposedMethod) : Except DeclarationError Member :=
  match m.signature with
  | .error fault => .error (.invalidSignature m.name fault.message)
  | .ok s => .ok (.method ⟨s, .native m.nativeBody, m.renames, m.doc⟩)

/-- The members of the class that exposes native methods, or the first fault among them. -/
def members (ms : List ExposedMethod) : Except DeclarationError (List (String × Member)) :=
  ms.mapM fun m => m.member.map fun k => (m.name, k)

end ExposedMethod

end Delegation
