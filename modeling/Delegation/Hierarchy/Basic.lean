import Std.Data.ExtTreeSet
import Delegation.Hierarchy.Ancestry
import Delegation.Native.Method
/-!
# Classes

Classes with their members, declared one after the other. A class is known by
its place in the order of declaration, so its bases come before it. The chain
of a class is the class and its ancestors, nearest first; a name is resolved
by the first class of the chain that has a member of its own under it.
-/

namespace Delegation

/-- A finite set of names, visited in the order of the names. -/
abbrev NameSet := Std.ExtTreeSet String

/-- What a method does when it is run. -/
inductive Script where
  /-- Answer with a text that shows what was bound. -/
  | describe
  /-- Add an entry to a journal and answer with a value. -/
  | record (journal : String) (answer : Value)
  /-- Answer with a value. -/
  | answer (value : Value)
  /-- Answer with an attribute of the instance. -/
  | attribute (name : String)
  /-- Fail with a text. -/
  | fail (text : String)
  /-- Answer with a bound parameter, read as a shape. -/
  | extract (param : String) (shape : Shape)
  /-- Call a method of the same instance with what was bound. -/
  | call (method : String)
  /-- Answer with the native value that the instance carries. -/
  | payload (type : NativeType)
  /-- Set an attribute of the instance's class. -/
  | assign (name : String) (value : Value)
  /-- Run a native method. -/
  | native (body : NativeBody)

/-- A callable member. -/
structure Method where
  /-- Its calling convention. -/
  signature : Signature
  /-- What it does. -/
  script : Script
  /-- The old names of its parameters. -/
  renames : Renaming := .empty
  /-- Its documentation. -/
  doc : Option String := none

/-- A member of a class. -/
inductive Member where
  /-- A callable one. -/
  | method (m : Method)
  /-- A plain value. -/
  | attribute (v : Value)

/-- A class, by its place in the order of declaration. -/
abbrev ClassId := Nat

/-- A declared class. -/
structure Class where
  /-- Its name, which other classes may share. -/
  name : String
  /-- Its direct bases in the order of declaration. -/
  bases : List ClassId
  /-- Its ancestors, nearest first. -/
  ancestors : List ClassId
  /-- Its own members. -/
  members : NameMap Member

/-- All classes in the order of their declaration. -/
structure Hierarchy where
  /-- The classes. -/
  classes : List Class

namespace Hierarchy

/-- No classes. -/
def empty : Hierarchy := ⟨[]⟩

/-- A class that was declared. -/
def class? (h : Hierarchy) (c : ClassId) : Option Class := h.classes[c]?

/-- The name of a class. -/
def name (h : Hierarchy) (c : ClassId) : String := ((h.class? c).map (·.name)).getD ""

/-- The direct bases of a class. -/
def bases (h : Hierarchy) (c : ClassId) : List ClassId := ((h.class? c).map (·.bases)).getD []

/-- A class and its ancestors, nearest first. -/
def chain (h : Hierarchy) (c : ClassId) : List ClassId :=
  c :: ((h.class? c).map (·.ancestors)).getD []

/-- Whether a class is another one or descends from it. -/
def isSubclass (h : Hierarchy) (c of : ClassId) : Bool := (h.chain c).contains of

/-- The members that a class declares itself. -/
def ownMembers (h : Hierarchy) (c : ClassId) : NameMap Member :=
  ((h.class? c).map (·.members)).getD ∅

/-- The member that a class declares itself under a name. -/
def ownMember? (h : Hierarchy) (c : ClassId) (name : String) : Option Member :=
  (h.ownMembers c)[name]?

/-- The member that a name means for a class: that of the first class of the chain that has one. -/
def lookup? (h : Hierarchy) (c : ClassId) (name : String) : Option Member :=
  (h.chain c).findSome? fun a => h.ownMember? a name

/-- The names of all members of a class, inherited ones included. -/
def memberNames (h : Hierarchy) (c : ClassId) : NameSet :=
  (h.chain c).foldl (fun names a => names.insertMany (h.ownMembers a).keys) ∅

/-- The hierarchy with one more class, or the failure to order its ancestors. The new class is
the last one. -/
def declare (h : Hierarchy) (name : String) (bases : List ClassId) (members : NameMap Member) :
    Except DeclarationError Hierarchy :=
  match Ancestry.ancestors? h.chain bases with
  | none => .error (.noAncestorOrder name)
  | some ancestors => .ok ⟨h.classes ++ [⟨name, bases, ancestors, members⟩]⟩

/-- The hierarchy with a member of a class added or replaced. -/
def setMember (h : Hierarchy) (c : ClassId) (name : String) (m : Member) : Hierarchy :=
  ⟨h.classes.modify c fun k => { k with members := k.members.insert name m }⟩

/-- A declared class comes after all others. -/
theorem declare_classes {h h' : Hierarchy} {name : String} {bases : List ClassId}
    {members : NameMap Member} (e : h.declare name bases members = .ok h') :
    ∃ ancestors, Ancestry.ancestors? h.chain bases = some ancestors ∧
      h'.classes = h.classes ++ [⟨name, bases, ancestors, members⟩] := by
  unfold declare at e
  split at e
  · simp at e
  · rename_i ancestors ha
    cases e
    exact ⟨ancestors, ha, rfl⟩

/-- Setting a member leaves every chain as it is. -/
@[simp] theorem chain_setMember (h : Hierarchy) (c a : ClassId) (name : String) (m : Member) :
    (h.setMember c name m).chain a = h.chain a := by
  simp only [chain, class?, setMember, List.getElem?_modify]
  split <;> cases h.classes[a]? <;> rfl

/-- The set member is found under its name, and all others are as they were. -/
theorem ownMember?_setMember (h : Hierarchy) (c a : ClassId) (name other : String) (m : Member)
    (hc : c < h.classes.length) :
    (h.setMember c name m).ownMember? a other =
      if a = c ∧ other = name then some m else h.ownMember? a other := by
  simp only [ownMember?, ownMembers, class?, setMember, List.getElem?_modify]
  by_cases ha : c = a
  · subst ha
    simp only [List.getElem?_eq_getElem hc, Option.map_some, Option.map_eq_map, if_true,
      Option.getD_some, true_and]
    rw [Std.ExtTreeMap.getElem?_insert]
    simp [eq_comm (a := other)]
  · simp [ha, Ne.symm ha]

end Hierarchy

end Delegation
