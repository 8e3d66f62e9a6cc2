import Delegation.Hierarchy.Basic
/-!
# Worlds

Everything that a running method can see or change: the classes with their
members, the instances with the native values they carry, and the journals of
recorded calls. Instances are known by the order of their creation and
journals by name; a journal nobody wrote to is empty.
-/

namespace Delegation

/-- A call as the method that received it saw it. -/
structure RecordedCall where
  /-- The name in the method's signature. -/
  method : String
  /-- The class of the receiving instance. -/
  className : String
  /-- The parameters with their values. -/
  params : NameMap Value
  /-- The values given by position beyond the parameters. -/
  varargs : List Value
  /-- The values given by keywords that name no parameter. -/
  varkw : NameMap Value
  deriving DecidableEq

/-- An instance, by its place in the order of creation. -/
abbrev InstanceId := Nat

/-- A live object. -/
structure Instance where
  /-- Its class. -/
  cls : ClassId
  /-- The attributes it has values of its own for. -/
  attributes : NameMap Value
  /-- The native value it carries. -/
  payload : Option Payload

/-- Classes, instances and journals. -/
structure World where
  /-- The classes. -/
  hierarchy : Hierarchy
  /-- The instances in the order of creation. -/
  instances : List Instance
  /-- The recorded calls of each journal, oldest first. -/
  journals : NameMap (List RecordedCall)

namespace World

/-- A world with nothing in it. -/
def empty : World := ⟨.empty, [], ∅⟩

/-- An instance that was created. -/
def instance? (w : World) (i : InstanceId) : Option Instance := w.instances[i]?

/-- The class of an instance. -/
def classOf? (w : World) (i : InstanceId) : Option ClassId := (w.instance? i).map (·.cls)

/-- The name of an instance's class. -/
def className (w : World) (i : InstanceId) : String :=
  ((w.classOf? i).map w.hierarchy.name).getD ""

/-- The value of an attribute: the instance's own, else that of its class. A method is none. -/
def attribute? (w : World) (i : InstanceId) (name : String) : Option Value := do
  let inst ← w.instance? i
  match inst.attributes[name]? with
  | some v => some v
  | none =>
    match ← w.hierarchy.lookup? inst.cls name with
    | .attribute v => some v
    | .method _ => none

/-- The world with one more class, the last one. -/
def declareClass (w : World) (name : String) (bases : List ClassId) (members : NameMap Member) :
    Except DeclarationError World :=
  (w.hierarchy.declare name bases members).map fun h => { w with hierarchy := h }

/-- The world with a member of a class added or replaced. -/
def setMember (w : World) (c : ClassId) (name : String) (m : Member) : World :=
  { w with hierarchy := w.hierarchy.setMember c name m }

/-- The world with one more instance, the last one. -/
def create (w : World) (inst : Instance) : World :=
  { w with instances := w.instances ++ [inst] }

/-- The content of an instance's native value, which must be of the wanted type. -/
def requirePayload (w : World) (i : InstanceId) (type : NativeType) :
    Except CallError type.Content :=
  match (w.instance? i).bind (·.payload) |>.bind (·.as? type) with
  | some content => .ok content
  | none => .error (.missingPayload (w.className i) type.name)

/-- The world with the native value of an instance replaced. -/
def setPayload (w : World) (i : InstanceId) (p : Payload) : World :=
  { w with instances := w.instances.modify i fun inst => { inst with payload := some p } }

/-- The recorded calls of a journal, oldest first. -/
def calls (w : World) (journal : String) : List RecordedCall := (w.journals[journal]?).getD []

/-- The latest recorded call of a journal. -/
def lastCall? (w : World) (journal : String) : Option RecordedCall := (w.calls journal).getLast?

/-- The number of recorded calls of a journal. -/
def callCount (w : World) (journal : String) : Nat := (w.calls journal).length

/-- The world with one more call recorded in a journal. -/
def record (w : World) (journal : String) (c : RecordedCall) : World :=
  { w with journals := w.journals.insert journal (w.calls journal ++ [c]) }

/-- The world with a journal emptied. -/
def clear (w : World) (journal : String) : World :=
  { w with journals := w.journals.erase journal }

/-- A recorded call is the last of its journal, and no other journal changes. -/
theorem calls_record (w : World) (journal other : String) (c : RecordedCall) :
    (w.record journal c).calls other =
      if other = journal then w.calls journal ++ [c] else w.calls other := by
  simp only [calls, record]
  rw [Std.ExtTreeMap.getElem?_insert]
  by_cases h : other = journal
  · subst h; simp
  · simp [h, Ne.symm h]

/-- An emptied journal has no calls, and no other journal changes. -/
theorem calls_clear (w : World) (journal other : String) :
    (w.clear journal).calls other = if other = journal then [] else w.calls other := by
  simp only [calls, clear]
  rw [Std.ExtTreeMap.getElem?_erase]
  by_cases h : other = journal
  · subst h; simp
  · simp [h, Ne.symm h]

end World

end Delegation
