import Delegation.Exposure.Interface
import Delegation.Exposure.Setting
import Delegation.Source.ImplBlock
/-!
# Captured functions

The interfaces of the functions of a block. A function with a receiver is
exposed; helper attributes on it and on its parameters say the old names of
its parameters and their roles, and do not stay on the block. Of several
faulty helper attributes in one place the last one is reported.

What an expression is, nothing here says: a default is read by a reader that
is given.
-/

namespace Delegation

open Source

/-- An interface as source text gives it: types are trees, and so are defaults, which may be left
out. -/
abbrev CapturedMethod := MethodInterface (List Tree) (Option (List Tree))

/-- A parameter as source text gives it. -/
abbrev CapturedParam := NativeParam (List Tree) (Option (List Tree))

/-- A reader of expressions: the trees of the one that others start with and those that follow it,
or the reason why they start with none. -/
abbrev ExpressionReader := List Tree → Except String (List Tree × List Tree)

namespace Capture

/-- The name of the attribute that gives the old names of parameters. -/
def renamesHelper : String := "legacy_names"

/-- The name of the attribute that gives the role of a parameter. -/
def roleHelper : String := "arg"

/-- All values, or the last fault. -/
def allOrLast {ε α : Type} : List (Except ε α) → Except ε (List α)
  | [] => .ok []
  | r :: rs =>
    match allOrLast rs, r with
    | .error e, _ => .error e
    | .ok _, .error e => .error e
    | .ok xs, .ok x => .ok (x :: xs)

/-- Without a fault there are all values. -/
theorem allOrLast_map_ok {ε α : Type} (xs : List α) :
    allOrLast (xs.map (Except.ok : α → Except ε α)) = .ok xs := by
  induction xs with
  | nil => rfl
  | cons x xs ih => simp [allOrLast, ih]

/-- All values are there exactly if no result is a fault. -/
theorem allOrLast_eq_ok {ε α : Type} {rs : List (Except ε α)} {xs : List α} :
    allOrLast rs = .ok xs ↔ rs = xs.map .ok := by
  refine ⟨fun h => ?_, fun h => h ▸ allOrLast_map_ok xs⟩
  induction rs generalizing xs with
  | nil =>
    cases h
    rfl
  | cons r rs ih =>
    unfold allOrLast at h
    split at h
    · cases h
    · cases h
    · rename_i hrs
      cases h
      simp [ih hrs]

/-- What a helper attribute says, read from the list between its delimiters. -/
def readHelper {α : Type} (name : String) (read : List Tree → Except ExposureFault α)
    (a : Attribute) : Attribute.Argument → Except ExposureFault α
  | .absent => .error (.withoutArguments a.inner name)
  | .assigned _ => .error (.assignedArguments a.inner name)
  | .listed inside => read inside

/-- What the helper attributes of a name say, one after the other. -/
def readHelpers {α : Type} (name : String) (read : List Tree → Except ExposureFault α)
    (as : List Attribute) : List (Except ExposureFault α) :=
  as.filterMap fun a => (a.argument? name).map (readHelper name read a)

/-- The old names that attributes give, in order. -/
def renames (as : List Attribute) : Except ExposureFault Renaming :=
  (allOrLast (readHelpers renamesHelper (SettingNames.read .every) as)).map fun rules =>
    ⟨rules.flatten⟩

/-- A role that has no more to say. -/
def bareRole (role : Role (Option (List Tree))) (rest : List Tree) :
    Except ExposureFault (Role (Option (List Tree))) :=
  if rest.isEmpty then .ok role else .error .manyRoles

variable (expression : ExpressionReader)

/-- The role that trees say. -/
def readRole : List Tree → Except ExposureFault (Role (Option (List Tree)))
  | [] => .error (.unreadable (.identifier true))
  | .word w :: rest =>
    if isKeyword w then .error (.unreadable (.keyword w))
    else if w = "varargs" then bareRole .varargs rest
    else if w = "varkw" then bareRole .varkw rest
    else if w = "default" then
      match rest with
      | .mark '=' _ :: value =>
        match expression value with
        | .ok (taken, []) => .ok (.default (some taken))
        | .ok (_, _ :: _) => .error .manyRoles
        | .error reason => .error (.unreadable (.expression reason))
      | _ => bareRole (.default none) rest
    else .error (.unknownArgument w)
  | _ => .error (.unreadable (.identifier false))

/-- Every role but the first is refused; `taken` says whether there was one before. -/
def refuseRepeated {α : Type} : Bool → List (Except ExposureFault α) →
    List (Except ExposureFault α)
  | _, [] => []
  | taken, .error e :: rs => .error e :: refuseRepeated taken rs
  | taken, .ok x :: rs => (if taken then .error .repeatedRole else .ok x) :: refuseRepeated true rs

/-- The role that attributes give to a parameter. -/
def role (as : List Attribute) : Except ExposureFault (Role (Option (List Tree))) :=
  let said := readHelpers roleHelper (readRole expression) as
  (allOrLast (refuseRepeated false said)).map fun roles => roles.head?.getD .required

/-- The identifier that a pattern is. It may be marked, and may be bound to more. -/
def identifier? (pattern : List Tree) : Option String :=
  let (byReference, ts) := match pattern with
    | .word "ref" :: ts => (true, ts)
    | ts => (false, ts)
  let ts := match ts with
    | .word "mut" :: ts => ts
    | ts => ts
  let named (w : String) := isIdentifier w || (byReference && w = "self")
  match ts with
  | [.word w] => if named w then some w else none
  | .word w :: .mark '@' _ :: _ => if named w then some w else none
  | _ => none

/-- Whether a type is a reference. -/
def isReference (type : List Tree) : Bool := type.head?.any (·.isMark '&')

/-- The interface of a parameter. -/
def param (p : Param) : Except ExposureFault CapturedParam :=
  match identifier? p.pattern with
  | none => .error .pattern
  | some ident =>
    if isReference p.type then .error .reference
    else (role expression p.attributes).map fun role => ⟨ident, p.type, role⟩

/-- The interfaces of parameters, of which one may collect surplus values and one surplus
keywords; the flags say whether there was one before. -/
def params : Bool → Bool → List Param → Except ExposureFault (List CapturedParam)
  | _, _, [] => .ok []
  | varargs, varkw, p :: ps => do
    let c ← param expression p
    match c.role with
    | .varargs =>
      if varargs then .error .duplicateVarargs
      else (params true varkw ps).map (c :: ·)
    | .varkw =>
      if varkw then .error .duplicateVarkw
      else (params varargs true ps).map (c :: ·)
    | _ => (params varargs varkw ps).map (c :: ·)

/-- The interface of a function, if it has a receiver. -/
def function? (f : Function) : Except ExposureFault (Option CapturedMethod) :=
  match f.receiver with
  | none => .ok none
  | some r =>
    if r.reference.isNone || r.mutable then .error .receiver
    else if f.isAsync then .error .asynchronous
    else if !f.generics.entries.isEmpty then .error .generic
    else do
      let renames ← renames f.attributes
      let params ← params expression false false f.params
      return some { ident := f.name, params, renames, doc := Attribute.documentation f.attributes }

/-- The interfaces of the functions with a receiver, in order. -/
def functions : List Function → Except ExposureFault (List CapturedMethod)
  | [] => .ok []
  | f :: fs => do
    let found ← function? expression f
    let rest ← functions fs
    return found.toList ++ rest

end Capture

namespace Source

/-- A parameter without its helper attributes. -/
def Param.withoutHelpers (p : Param) : Param :=
  { p with attributes := p.attributes.filter fun a => !a.isNamed Capture.roleHelper }

/-- No helper attribute stays on a parameter. -/
theorem Param.isNamed_withoutHelpers (p : Param) {a : Attribute}
    (h : a ∈ p.withoutHelpers.attributes) : a.isNamed Capture.roleHelper = false := by
  simpa using (List.mem_filter.1 h).2

/-- A function without its helper attributes. One without a receiver has none. -/
def Function.withoutHelpers (f : Function) : Function :=
  if f.receiver.isNone then f
  else
    { f with
      attributes := f.attributes.filter fun a => !a.isNamed Capture.renamesHelper
      params := f.params.map Param.withoutHelpers }

/-- An item without helper attributes. -/
def BlockItem.withoutHelpers : BlockItem → BlockItem
  | function f => .function f.withoutHelpers
  | item => item

/-- A block without helper attributes. -/
def ImplBlock.withoutHelpers (b : ImplBlock) : ImplBlock :=
  { b with items := b.items.map BlockItem.withoutHelpers }

end Source

end Delegation
