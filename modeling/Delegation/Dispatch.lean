import Delegation.Hierarchy.Basic
/-!
# Dispatch tables

Handlers for pairs of a class and a qualifier. A class is resolved along its
chain, nearest first; at each class a handler for the wanted qualifier wins
over the class's default handler, and the first class with either decides. A
pair that has a handler keeps it.
-/

namespace Delegation

/-- Handlers by class and qualifier. -/
structure HandlerTable (η : Type) where
  /-- The handlers of each class by qualifier. -/
  entries : Std.ExtTreeMap ClassId (NameMap η)

namespace HandlerTable

variable {η : Type}

/-- The qualifier that stands for none. -/
def default : String := "default"

/-- A table without handlers. -/
def empty : HandlerTable η := ⟨∅⟩

/-- The handler registered for exactly a class and a qualifier. -/
def get? (t : HandlerTable η) (c : ClassId) (qualifier : String) : Option η :=
  t.entries[c]?.bind fun handlers => handlers[qualifier]?

/-- Whether there is a handler for exactly a class and a qualifier. -/
def contains (t : HandlerTable η) (c : ClassId) (qualifier : String) : Bool :=
  (t.get? c qualifier).isSome

/-- The table with a place for the handlers of a class, an empty one if there was none. -/
def withPlace (t : HandlerTable η) (c : ClassId) : HandlerTable η := ⟨t.entries.insertIfNew c ∅⟩

/-- The table with a handler put under a class and a qualifier. -/
def put (t : HandlerTable η) (c : ClassId) (qualifier : String) (handler : η) : HandlerTable η :=
  ⟨t.entries.insert c (((t.entries[c]?).getD ∅).insert qualifier handler)⟩

/-- A registration as it goes on in a table: the class is given a place first, and the qualifier is
looked up there after. What is left of the table comes with a refusal too. -/
def enter (t : HandlerTable η) (h : Hierarchy) (c : ClassId) (qualifier : String)
    (handler : η) : HandlerTable η × Except DispatchError Unit :=
  let t := t.withPlace c
  if t.contains c qualifier then (t, .error (.duplicate (h.name c) qualifier))
  else (t.put c qualifier handler, .ok ())

/-- The table with one more handler, unless its class and qualifier have one. -/
def register (t : HandlerTable η) (h : Hierarchy) (c : ClassId) (qualifier : String)
    (handler : η) : Except DispatchError (HandlerTable η) :=
  let done := t.enter h c qualifier handler
  done.2.map fun _ => done.1

/-- The handler that a class has itself for a qualifier, else its default one. -/
def ownHandler? (t : HandlerTable η) (qualifier : String) (c : ClassId) : Option η :=
  (t.get? c qualifier).or (t.get? c default)

/-- The handler for a class and a qualifier. -/
def resolve (t : HandlerTable η) (h : Hierarchy) (c : ClassId) (qualifier : String) :
    Except DispatchError η :=
  match (h.chain c).findSome? (t.ownHandler? qualifier) with
  | some handler => .ok handler
  | none => .error (.unresolved (h.name c) qualifier)

/-- The number of classes with handlers. -/
def classCount (t : HandlerTable η) : Nat := t.entries.size

/-- The number of handlers. -/
def count (t : HandlerTable η) : Nat :=
  (t.entries.toList.map fun own => own.2.size).foldr (· + ·) 0

/-- Whether there are no handlers. -/
def isEmpty (t : HandlerTable η) : Bool := t.count == 0

/-- A text that counts classes and handlers. -/
def inspect (t : HandlerTable η) : String :=
  "DispatchTable \x7b classes: " ++ toString t.classCount ++ ", handlers: " ++ toString t.count ++
    " \x7d"

/-- Making a place for a class changes no handler. -/
@[simp] theorem get?_withPlace (t : HandlerTable η) (c c' : ClassId) (q : String) :
    (t.withPlace c).get? c' q = t.get? c' q := by
  simp only [get?, withPlace]
  rw [Std.ExtTreeMap.getElem?_insertIfNew]
  split
  · rename_i hnew
    obtain rfl : c = c' := Std.LawfulEqCmp.compare_eq_iff_eq.1 hnew.1
    have hnone : t.entries[c]? = none := by
      rw [Std.ExtTreeMap.mem_iff_isSome_getElem?, Option.not_isSome_iff_eq_none] at hnew
      exact hnew.2
    simp [hnone]
  · rfl

/-- A handler that was put into a table is found under its class and qualifier, and all others are
as they were. -/
theorem get?_put (t : HandlerTable η) (c : ClassId) (qualifier : String) (handler : η)
    (c' : ClassId) (q : String) : (t.put c qualifier handler).get? c' q =
      if c' = c ∧ q = qualifier then some handler else t.get? c' q := by
  simp only [get?, put]
  rw [Std.ExtTreeMap.getElem?_insert]
  by_cases hc : c' = c
  · subst hc
    simp only [Std.ReflCmp.compare_self, if_true, Option.bind_some, true_and]
    rw [Std.ExtTreeMap.getElem?_insert]
    by_cases hq : q = qualifier
    · simp [hq]
    · cases t.entries[c']? <;> simp [hq, Ne.symm hq]
  · simp [hc, Ne.symm hc]

end HandlerTable

end Delegation
