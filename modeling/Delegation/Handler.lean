import Delegation.Dispatch
import Delegation.World
/-!
# Handlers

Handlers that answer for a dispatched instance, and dispatch itself: the
handler is resolved for the instance's class and then run on the instance.
-/

namespace Delegation

/-- A handler that answers for an instance. -/
structure Handler where
  /-- What the handler is called. -/
  label : String
  /-- The attribute it answers with, if it answers with one. -/
  reads : Option String
  deriving DecidableEq, Repr

namespace Handler

/-- What a handler answers for an instance: the wanted attribute, or its label beside the name of
the instance's class. -/
def answer (h : Handler) (w : World) (i : InstanceId) : Value :=
  match h.reads with
  | some name => (w.attribute? i name).getD .none
  | none => .str (h.label ++ ":" ++ w.className i)

end Handler

namespace HandlerTable

/-- The answer of the handler that an instance of a class resolves to. -/
def dispatch (t : HandlerTable Handler) (w : World) (c : ClassId) (i : InstanceId)
    (qualifier : String) : Except DispatchError Value :=
  (t.resolve w.hierarchy c qualifier).map fun handler => handler.answer w i

end HandlerTable

end Delegation
