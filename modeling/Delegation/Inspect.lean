import Delegation.World
/-!
# Inspected texts

Texts that show classes, members and instances part by part.
-/

namespace Delegation

/-- A text between double quotes, as characters. -/
def quoted (s : String) : List Char := (Quoted.quote s).toList

/-- A structure's name with its fields, each a name and a text. -/
def fieldsText (name : String) (fields : List (String × List Char)) (complete : Bool) : List Char :=
  let shown := fields.map fun f => f.1.toList ++ ':' :: ' ' :: f.2
  name.toList ++ " \x7b ".toList ++
    commaSeparated (if complete then shown else shown ++ ["..".toList]) ++ " \x7d".toList

namespace Hierarchy

/-- The text of a class: its number, counted from one, its name and its chain. -/
def inspect (h : Hierarchy) (c : ClassId) : String :=
  String.ofList (fieldsText "Class"
    [("id", applied "ClassId" (toString (c + 1)).toList), ("name", quoted (h.name c)),
      ("mro", bracketed ((h.chain c).map fun a => quoted (h.name a)))] false)

end Hierarchy

/-- The text of something that may be absent. -/
def inspectOption (text : Option (List Char)) : List Char :=
  match text with
  | some t => applied "Some" t
  | none => "None".toList

namespace Renaming

/-- The text of rules, each an old and a new name. -/
def inspectChars (r : Renaming) : List Char :=
  fieldsText "LegacyNames" [("rules", bracketed (r.rules.map fun e =>
    '(' :: (commaSeparated [quoted e.1, quoted e.2] ++ [')'])))] true

end Renaming

namespace Member

/-- The text of a member. -/
def inspectChars : Member → List Char
  | .attribute v => applied "Attribute" v.inspectChars
  | .method m => applied "Method" (fieldsText "Method"
      [("signature", quoted m.signature.display), ("legacy_names", m.renames.inspectChars),
        ("doc", inspectOption (m.doc.map quoted))] false)

/-- The text of a member that may be absent. -/
def inspect? (m : Option Member) : String := String.ofList (inspectOption (m.map inspectChars))

end Member

namespace World

/-- The text of an instance: its class, its own attributes and whether it carries a value. -/
def inspect (w : World) (i : InstanceId) : String :=
  let attributes := (w.instance? i).elim [] fun inst => inst.attributes.toList
  let carries := (w.instance? i).elim false fun inst => inst.payload.isSome
  String.ofList (fieldsText "Instance"
    [("class", quoted (w.className i)),
      ("attributes", braced (Value.inspectEntries attributes)),
      ("has_payload", boolText carries)] true)

end World

end Delegation
