import Delegation.Proxy.Registry
/-!
# Which body a call lets run

Whatever way a call takes, at most one body runs for it at the outermost
level: that of the method found last, on the instance found last and on what
its parameters are bound to. The functions here find that body, or the failure
that keeps every body from running, without running anything. A call is then
the body's run or that failure, for every way methods may run; so calls that
let the same body run have the same effects and end in the same way.
-/

namespace Delegation

/-- A body that a call lets run. -/
structure Body where
  /-- The method it is the body of. -/
  method : Method
  /-- The instance it runs on. -/
  receiver : InstanceId
  /-- What its parameters are bound to. -/
  binding : Binding

/-- One run of a body. A failure of the run is the method's failure. -/
def Body.run (run : Runner) (w : World) (body : Body) : World × Except CallError Value :=
  let done := run body.method body.receiver body.binding w
  (done.1, done.2.mapError (.method body.method.signature.name))

/-- What becomes of a call, given the body that it lets run or the failure that keeps every body
from running. -/
def settle (run : Runner) (w : World) : Except CallError Body → World × Except CallError Value
  | .error e => (w, .error e)
  | .ok body => body.run run w

/-- The body that a call of a method lets run. -/
def Method.resolve (m : Method) (i : InstanceId) (a : Arguments) : Except CallError Body :=
  match m.signature.bind a with
  | .error e => .error (.binding e)
  | .ok b => .ok ⟨m, i, b⟩

/-- The body that a call of a member of an instance lets run. -/
def World.resolve (w : World) (i : InstanceId) (name : String) (a : Arguments) :
    Except CallError Body :=
  match (w.classOf? i).bind fun c => w.hierarchy.lookup? c name with
  | some (.method m) => m.resolve i a
  | some (.attribute _) => .error (.notCallable (w.className i) name)
  | none => .error (.noSuchMember (w.className i) name)

/-- The body that a call of a delegate lets run. -/
def Delegate.resolve (d : Delegate) (w : World) (active : Option InstanceId) (a : Arguments) :
    Except CallError Body :=
  match d.prepare a with
  | .error e => .error e
  | .ok handed =>
    match active with
    | none => .error (.notEstablished d.className d.name)
    | some i => w.resolve i d.name handed

/-- The body that a call of a scope's delegate lets run. -/
def Scope.resolve (s : Scope) (w : World) (name : String) (a : Arguments) : Except CallError Body :=
  match s.delegate? name with
  | none => .error (.unknownName s.name name)
  | some d => d.resolve w s.active a

/-- The body that a call by scope and name lets run. -/
def Registry.resolve (r : Registry) (w : World) (h : ScopeHandle) (name : String) (a : Arguments) :
    Except Failure Body :=
  match r.scope? h with
  | none => .error (.registry (.unknownScope h.index))
  | some s => (s.resolve w name a).mapError .call

/-- A call of a method runs the body that it lets run. -/
theorem Method.invoke_eq (run : Runner) (m : Method) (i : InstanceId) (a : Arguments) (w : World) :
    m.invoke run i a w = settle run w (m.resolve i a) := by
  unfold invoke resolve
  cases m.signature.bind a <;> rfl

/-- A call of a member runs the body that it lets run. -/
theorem World.callVia_eq (run : Runner) (w : World) (i : InstanceId) (name : String)
    (a : Arguments) : w.callVia run i name a = settle run w (w.resolve i name a) := by
  unfold callVia resolve
  rcases (w.classOf? i).bind fun c => w.hierarchy.lookup? c name with _ | m | v
  · rfl
  · exact m.invoke_eq run i a w
  · rfl

/-- A name that means a method is called as the method. -/
theorem World.resolve_of_method {w : World} {i : InstanceId} {c : ClassId} {name : String}
    {m : Method} (hi : w.classOf? i = some c) (hn : w.hierarchy.lookup? c name = some (.method m))
    (a : Arguments) : w.resolve i name a = m.resolve i a := by
  simp only [resolve, hi, Option.bind_some, hn]

/-- A call of a delegate runs the body that it lets run. -/
theorem Delegate.callVia_eq (run : Runner) (d : Delegate) (w : World) (active : Option InstanceId)
    (a : Arguments) : d.callVia run w active a = settle run w (d.resolve w active a) := by
  unfold callVia resolve
  cases d.prepare a with
  | error e => rfl
  | ok handed =>
    cases active with
    | none => rfl
    | some i => exact w.callVia_eq run i d.name handed

/-- Whatever the body does, a call of a delegate ends as what it resolves to. -/
theorem Delegate.callVia_of_resolve {d : Delegate} {w : World} {active : Option InstanceId}
    {a : Arguments} {found : Except CallError Body} (h : d.resolve w active a = found)
    (run : Runner) : d.callVia run w active a = settle run w found := by
  rw [callVia_eq, h]

/-- A call of a scope's delegate runs the body that it lets run. -/
theorem Scope.callVia_eq (run : Runner) (s : Scope) (w : World) (name : String) (a : Arguments) :
    s.callVia run w name a = settle run w (s.resolve w name a) := by
  unfold callVia resolve
  cases s.delegate? name with
  | none => rfl
  | some d => exact d.callVia_eq run w s.active a

/-- A call by scope and name runs the body that it lets run. -/
theorem Registry.callVia_eq (run : Runner) (r : Registry) (w : World) (h : ScopeHandle)
    (name : String) (a : Arguments) : r.callVia run w h name a =
      match r.resolve w h name a with
      | .error f => (w, .error f)
      | .ok body => ((body.run run w).1, (body.run run w).2.mapError .call) := by
  unfold callVia resolve scope?
  cases hs : r.slot h with
  | error e =>
    unfold slot at hs
    split at hs
    · cases hs
    · cases hs
      rfl
  | ok index =>
    obtain ⟨-, rfl, -⟩ := slot_eq_ok hs
    cases hk : r.scopes[h.index]? with
    | none => simp only [hk]
    | some s =>
      simp only [hk, s.callVia_eq]
      cases s.resolve w name a <;> rfl

/-- Where a scope's call and a call of a member let the same body run, or fail alike, they end
alike whatever the body does. -/
theorem Registry.callVia_eq_of_resolve {r : Registry} {w : World} {h : ScopeHandle} {s : Scope}
    (hs : r.scope? h = some s) {name : String} {a : Arguments} {found : Except CallError Body}
    (hfound : s.resolve w name a = found) :
    r.resolve w h name a = found.mapError .call ∧ ∀ run, r.callVia run w h name a =
      ((settle run w found).1, (settle run w found).2.mapError .call) := by
  have hresolve : r.resolve w h name a = found.mapError .call := by
    simp only [resolve, hs, hfound]
  refine ⟨hresolve, fun run => ?_⟩
  rw [callVia_eq, hresolve]
  cases found <;> rfl

end Delegation
