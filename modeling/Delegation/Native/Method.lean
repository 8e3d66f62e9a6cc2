import Delegation.Exposure.Interface
import Delegation.Native.Payload
import Delegation.Value.Return
/-!
# Native methods

Native methods as they are exposed: an interface with static types and
default values, and a body. The signature is made by the interface's
declarations; a call reads every parameter back by the interface's steps, in
order, before the body runs. Of all this a member keeps what it does to the
native value when it is run on a binding.
-/

namespace Delegation

/-- A signature under declaration. -/
structure Draft where
  /-- The parameters so far. -/
  params : List Parameter
  /-- The parameter for surplus values given by position. -/
  varargs : Option String
  /-- The parameter for surplus keywords. -/
  varkw : Option String

namespace Draft

/-- Nothing declared. -/
def empty : Draft := ⟨[], none, none⟩

/-- A draft with one more declaration. -/
def declare (d : Draft) : Declaration Value → Draft
  | .param name => { d with params := d.params ++ [⟨name, none⟩] }
  | .paramDefault name value => { d with params := d.params ++ [⟨name, some value⟩] }
  | .varargs name => { d with varargs := some name }
  | .varkw name => { d with varkw := some name }

/-- The signature that declarations make, or the first fault of their parameter list. -/
def build (name : String) (ds : List (Declaration Value)) : Except SignatureFault Signature :=
  let d := ds.foldl declare empty
  Signature.declare name d.params d.varargs d.varkw

end Draft

namespace Extraction

/-- The value that a step reads from a binding. -/
def read (e : Extraction Shape) (b : Binding) : Except ConversionError e.type.Carrier :=
  match e.origin with
  | .parameter name => b.extract e.type name
  | .surplus => e.type.ofValue (.list b.varargs)
  | .keywords => e.type.ofValue (.ofMap b.varkw)

/-- The values that steps read, one each. -/
@[reducible] def Row : List (Extraction Shape) → Type
  | [] => Unit
  | e :: es => e.type.Carrier × Row es

/-- The values that steps read from a binding, or the fault of the first that cannot read. -/
def readAll (b : Binding) : (es : List (Extraction Shape)) → Except ConversionError (Row es)
  | [] => .ok ()
  | e :: es => do
    let x ← e.read b
    let rest ← readAll b es
    .ok (x, rest)

end Extraction

/-- A native method as it is exposed. -/
structure ExposedMethod extends MethodInterface Shape Value where
  /-- The native type it works on. -/
  type : NativeType
  /-- The type of its result. -/
  result : ReturnShape
  /-- What it does to the native value, and what it returns. -/
  body : type.Content → Extraction.Row (params.map NativeParam.extraction) →
    type.Content × result.Carrier

/-- What running a native method does to a native value, given what was bound, and what it ends
with. -/
structure NativeBody where
  /-- The native type it works on. -/
  type : NativeType
  /-- One run of it. -/
  run : type.Content → Binding → type.Content × Except Cause Value

namespace ExposedMethod

/-- The signature of an exposed method, or the fault of its parameter list. -/
def signature (m : ExposedMethod) : Except SignatureFault Signature :=
  Draft.build m.name m.declarations

/-- One run of an exposed method on a native value: the value afterwards and the outcome. The
native method runs only once every parameter has been read. -/
def run (m : ExposedMethod) (content : m.type.Content) (b : Binding) :
    m.type.Content × Except Cause Value :=
  match Extraction.readAll b m.extractions with
  | .error e => (content, .error (.conversion e))
  | .ok row =>
    let done := m.body content row
    (done.1, m.result.outcome done.2)

/-- The body that a member for an exposed method has. -/
def nativeBody (m : ExposedMethod) : NativeBody := ⟨m.type, m.run⟩

end ExposedMethod

end Delegation
