import Delegation.Exposure.Fault
import Delegation.Source.Literal
import Delegation.Source.Token
import Delegation.Text.Identifier
/-!
# Settings

Lists of names with texts, such as the arguments of a class or the old names
of parameters. A comma may follow each setting. The first fault decides.
-/

namespace Delegation

open Source

/-- Which names a list of settings may have. -/
inductive SettingNames where
  /-- Every word, without the mark of a raw identifier. -/
  | every
  /-- One identifier. -/
  | only (name : String)

namespace SettingNames

/-- What is expected where a setting starts. -/
def expected : SettingNames → ExposureFault
  | every => .unreadable .word
  | only _ => .unreadable (.identifier false)

/-- The fault of a word that is no name. -/
def wordFault? : SettingNames → String → Option ExposureFault
  | every, _ => none
  | only _, word => if isKeyword word then some (.unreadable (.keyword word)) else none

/-- The fault of a name that is not known. -/
def nameFault? : SettingNames → String → Option ExposureFault
  | every, _ => none
  | only name, word => if word = name then none else some (.unknownArgument word)

/-- The text of a setting, which stands at the start of trees. -/
def readText : List Tree → Except ExposureFault String
  | [] => .error (.unreadable (.text true))
  | .literal written :: _ =>
    match Literal.value? written with
    | some text => .ok text
    | none => .error (.unreadable (.text false))
  | _ => .error (.unreadable (.text false))

/-- The settings that trees are written for. -/
def read (names : SettingNames) : List Tree → Except ExposureFault (List (String × String))
  | [] => .ok []
  | .word word :: .mark '=' _ :: ts => do
    if let some fault := (names.wordFault? word).or (names.nameFault? word) then throw fault
    let text ← readText ts
    let rest ← match ts with
      | _ :: .mark ',' _ :: ts => read names ts
      | _ :: ts => read names ts
      | [] => .ok []
    return (unraw word, text) :: rest
  | .word word :: _ => .error ((names.wordFault? word).getD (.unreadable .equals))
  | _ => .error names.expected

end SettingNames

end Delegation
