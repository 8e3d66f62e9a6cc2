import Delegation.Proxy.Delegate
/-!
# Scopes

Namespaces that delegates are installed into, with the attribute values bound
from the active instance. No name stands for a delegate and a value at once:
installing a delegate removes the value, and binding a value the delegate.
-/

namespace Delegation

/-- A scope of a registry, as callers hold it. -/
structure ScopeHandle where
  /-- The registry that issued it. -/
  registry : Nat
  /-- The scope's place in that registry. -/
  index : Nat
  deriving DecidableEq, Repr

/-- A namespace of delegates and bound values. -/
structure Scope where
  /-- Its handle. -/
  id : ScopeHandle
  /-- Its name. -/
  name : String
  /-- The delegates by the names they are called by. -/
  delegates : NameMap Delegate
  /-- The attribute values that are bound. -/
  bindings : NameMap Value
  /-- The instance that delegates hand calls on to. -/
  active : Option InstanceId
  deriving DecidableEq

namespace Scope

/-- A scope with nothing in it. -/
def empty (id : ScopeHandle) (name : String) : Scope := ⟨id, name, ∅, ∅, none⟩

/-- The value bound under a name. -/
def get? (s : Scope) (name : String) : Option Value := s.bindings[name]?

/-- The delegate installed under a name. -/
def delegate? (s : Scope) (name : String) : Option Delegate := s.delegates[name]?

/-- Whether a name stands for a value or a delegate. -/
def contains (s : Scope) (name : String) : Bool :=
  s.bindings.contains name || s.delegates.contains name

/-- The scope with a delegate in place of whatever its name stood for. -/
def install (s : Scope) (d : Delegate) : Scope :=
  { s with bindings := s.bindings.erase d.name, delegates := s.delegates.insert d.name d }

/-- The scope without the delegate of a name. -/
def uninstall (s : Scope) (name : String) : Scope :=
  { s with delegates := s.delegates.erase name }

/-- The scope with a value in place of whatever a name stood for. -/
def bind (s : Scope) (name : String) (v : Value) : Scope :=
  { s with delegates := s.delegates.erase name, bindings := s.bindings.insert name v }

/-- The scope without the value of a name. -/
def unbind (s : Scope) (name : String) : Scope :=
  { s with bindings := s.bindings.erase name }

/-- The scope with another active instance, or none. -/
def activate (s : Scope) (i : Option InstanceId) : Scope := { s with active := i }

/-- A call of the delegate installed under a name, given how methods run. -/
def callVia (run : Runner) (s : Scope) (w : World) (name : String) (a : Arguments) :
    World × Except CallError Value :=
  match s.delegate? name with
  | none => (w, .error (.unknownName s.name name))
  | some d => d.callVia run w s.active a

/-- A call of the delegate installed under a name. -/
def call (s : Scope) (w : World) (name : String) (a : Arguments) :
    World × Except CallError Value :=
  s.callVia (World.run w.depth) w name a

/-- The value that a class's attribute has in a scope: that of the active instance, if it is an
instance of exactly this class. -/
def activeValue? (s : Scope) (w : World) (c : ClassId) (name : String) : Option Value := do
  let i ← s.active
  if w.classOf? i = some c then w.attribute? i name else none

/-- An installed delegate stands under its name, and all others are as they were. -/
theorem delegate?_install (s : Scope) (d : Delegate) (name : String) :
    (s.install d).delegate? name = if name = d.name then some d else s.delegate? name := by
  simp only [delegate?, install]
  rw [Std.ExtTreeMap.getElem?_insert]
  by_cases h : name = d.name
  · simp [h]
  · simp [h, Ne.symm h]

/-- Installing a delegate unbinds its name alone. -/
theorem get?_install (s : Scope) (d : Delegate) (name : String) :
    (s.install d).get? name = if name = d.name then none else s.get? name := by
  simp only [get?, install]
  rw [Std.ExtTreeMap.getElem?_erase]
  by_cases h : name = d.name
  · simp [h]
  · simp [h, Ne.symm h]

/-- Binding a value uninstalls the delegate of its name alone. -/
theorem delegate?_bind (s : Scope) (key : String) (v : Value) (name : String) :
    (s.bind key v).delegate? name = if name = key then none else s.delegate? name := by
  simp only [delegate?, bind]
  rw [Std.ExtTreeMap.getElem?_erase]
  by_cases h : name = key
  · simp [h]
  · simp [h, Ne.symm h]

/-- A bound value stands under its name, and all others are as they were. -/
theorem get?_bind (s : Scope) (key : String) (v : Value) (name : String) :
    (s.bind key v).get? name = if name = key then some v else s.get? name := by
  simp only [get?, bind]
  rw [Std.ExtTreeMap.getElem?_insert]
  by_cases h : name = key
  · simp [h]
  · simp [h, Ne.symm h]

end Scope

end Delegation
