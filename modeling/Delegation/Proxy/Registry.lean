import Delegation.Proxy.Scope
/-!
# Registries

A registry owns scopes and installs the public members of registered classes
into them. A registration is no snapshot: when a class gains a member, the
member is published again wherever the class or a class below it is
registered. Attaching an instance makes it the active one in every scope of
its class's registration. Registrations are visited in the order in which
their classes were declared.
-/

namespace Delegation

/-- What a registry knows of a registered class. -/
structure Registration where
  /-- The public attributes that are bound on attaching. -/
  exposed : NameSet
  /-- The scopes the class is installed in, in the order of registration. -/
  scopes : List ScopeHandle
  deriving DecidableEq

/-- Scopes, and the classes registered into them. -/
structure Registry where
  /-- What tells its handles from those of other registries. -/
  id : Nat
  /-- What hidden names start with; if empty, no name is hidden. -/
  hiddenMark : String
  /-- The scopes in the order of creation. -/
  scopes : List Scope
  /-- The registered classes. -/
  registrations : Std.ExtTreeMap ClassId Registration
  deriving DecidableEq

/-- Publishes the current member of a class under a name in one scope, and keeps count of the
exposed attributes. A name without a member changes nothing. -/
def Scope.publish (w : World) (c : ClassId) (name : String) (exposed : NameSet) (s : Scope) :
    NameSet × Scope :=
  match w.hierarchy.lookup? c name with
  | some (.method m) =>
    (exposed.erase name, s.install (.ofMethod (w.hierarchy.name c) name m))
  | some (.attribute _) =>
    let s := s.uninstall name
    (exposed.insert name,
      match s.activeValue? w c name with
      | some v => s.bind name v
      | none => s)
  | none => (exposed, s)

/-- Publishes several names one after the other. -/
def Scope.publishAll (w : World) (c : ClassId) (names : List String) (exposed : NameSet)
    (s : Scope) : NameSet × Scope :=
  names.foldl (fun x name => x.2.publish w c name x.1) (exposed, s)

namespace Registry

/-- A registry without scopes. -/
def empty (id : Nat) (hiddenMark : String) : Registry := ⟨id, hiddenMark, [], ∅⟩

/-- The mark of hidden names unless another one is chosen. -/
def usualMark : String := "_"

/-- The number of the first registry. -/
def firstNumber : UInt64 := 1

/-- A new registry with the number that comes next, and the number after it, which is zero after
the last number there is. -/
def create (next : UInt64) (hiddenMark : String) : Registry × UInt64 :=
  (.empty next.toNat hiddenMark, next + 1)

/-- Whether a name is exposed through scopes. -/
def isPublic (r : Registry) (name : String) : Bool :=
  r.hiddenMark.isEmpty || !r.hiddenMark.toList.isPrefixOf name.toList

/-- The public names of a class's members, in order. -/
def publicNames (r : Registry) (w : World) (c : ClassId) : List String :=
  (w.hierarchy.memberNames c).toList.filter r.isPublic

/-- The registry with one more scope, and the handle of that scope. -/
def createScope (r : Registry) (name : String) : Registry × ScopeHandle :=
  let id : ScopeHandle := ⟨r.id, r.scopes.length⟩
  ({ r with scopes := r.scopes ++ [.empty id name] }, id)

/-- The place of a handle's scope, if the handle is one of this registry. -/
def slot (r : Registry) (h : ScopeHandle) : Except RegistryError Nat :=
  if h.registry = r.id ∧ h.index < r.scopes.length then .ok h.index
  else .error (.unknownScope h.index)

/-- The scope of a handle. -/
def scope? (r : Registry) (h : ScopeHandle) : Option Scope :=
  match r.slot h with
  | .ok index => r.scopes[index]?
  | .error _ => none

/-- What is known of a class, if it is registered. -/
def registration? (r : Registry) (c : ClassId) : Option Registration := r.registrations[c]?

/-- The scopes with one of them changed, and the exposed names after the change. -/
def updateScope (change : NameSet → Scope → NameSet × Scope) (x : NameSet × List Scope)
    (h : ScopeHandle) : NameSet × List Scope :=
  match x.2[h.index]? with
  | some s => let done := change x.1 s; (done.1, x.2.set h.index done.2)
  | none => x

/-- Changes every scope of a class's registration, and with them its exposed names. -/
def updateRegistered (r : Registry) (c : ClassId) (reg : Registration)
    (change : NameSet → Scope → NameSet × Scope) : Registry :=
  let done := reg.scopes.foldl (updateScope change) (reg.exposed, r.scopes)
  { r with
    scopes := done.2
    registrations := r.registrations.insert c { reg with exposed := done.1 } }

/-- Installs every public member of a class into a scope. -/
def register (r : Registry) (w : World) (c : ClassId) (h : ScopeHandle) :
    Except RegistryError Registry :=
  (r.slot h).map fun _ =>
    let reg := (r.registration? c).getD ⟨∅, []⟩
    let done := updateScope (Scope.publishAll w c (r.publicNames w c)) (reg.exposed, r.scopes) h
    { r with
      scopes := done.2
      registrations := r.registrations.insert c
        { exposed := done.1
          scopes := if h ∈ reg.scopes then reg.scopes else reg.scopes ++ [h] } }

/-- Publishes a member of a class again in every scope that the class or a class below it is
registered in. -/
def notify (r : Registry) (w : World) (c : ClassId) (name : String) : Registry :=
  if r.isPublic name then
    r.registrations.toList.foldl (fun r' e =>
      if w.hierarchy.isSubclass e.1 c then
        r'.updateRegistered e.1 e.2 (Scope.publish w e.1 name)
      else r') r
  else r

/-- Sets a member of a class and publishes it. -/
def addMember (r : Registry) (w : World) (c : ClassId) (name : String) (m : Member) :
    World × Registry :=
  let w := w.setMember c name m
  (w, r.notify w c name)

/-- Makes an instance the active one in every scope its class is registered in, and publishes the
class's members there again. An instance of a class that is not registered changes nothing. -/
def attach (r : Registry) (w : World) (i : InstanceId) : Registry :=
  match w.classOf? i with
  | none => r
  | some c =>
    match r.registration? c with
    | none => r
    | some reg =>
      let names := r.publicNames w c
      r.updateRegistered c reg fun exposed s => (s.activate (some i)).publishAll w c names exposed

/-- Leaves every scope that the instance's class is registered in without an active instance and
without values under the class's exposed names. -/
def detach (r : Registry) (w : World) (i : InstanceId) : Registry :=
  match w.classOf? i with
  | none => r
  | some c =>
    match r.registration? c with
    | none => r
    | some reg =>
      r.updateRegistered c reg fun exposed s =>
        (exposed, exposed.toList.foldl Scope.unbind (s.activate none))

/-- A call of a delegate by its scope and name, given how methods run. -/
def callVia (run : Runner) (r : Registry) (w : World) (h : ScopeHandle) (name : String)
    (a : Arguments) : World × Except Failure Value :=
  match r.slot h with
  | .error e => (w, .error (.registry e))
  | .ok index =>
    match r.scopes[index]? with
    | none => (w, .error (.registry (.unknownScope index)))
    | some s =>
      let done := s.callVia run w name a
      (done.1, done.2.mapError .call)

/-- A call of a delegate by its scope and name. -/
def call (r : Registry) (w : World) (h : ScopeHandle) (name : String) (a : Arguments) :
    World × Except Failure Value :=
  r.callVia (World.run w.depth) w h name a

/-- A new scope is found by its handle. -/
theorem scope?_createScope (r : Registry) (name : String) :
    (r.createScope name).1.scope? (r.createScope name).2 =
      some (.empty (r.createScope name).2 name) := by
  simp [createScope, scope?, slot]

/-- Only the registry's own handles of scopes it has are accepted. -/
theorem slot_eq_ok {r : Registry} {h : ScopeHandle} {index : Nat} (e : r.slot h = .ok index) :
    h.registry = r.id ∧ index = h.index ∧ index < r.scopes.length := by
  unfold slot at e
  split at e
  · rename_i hs
    cases e
    exact ⟨hs.1, rfl, hs.2⟩
  · simp at e

end Registry

end Delegation
