/-!
# Identifiers

Names in source text. A keyword becomes an identifier by a mark that is no
part of the name.
-/

namespace Delegation

/-- The words that are no identifiers. -/
def reservedWords : List String :=
  ["_", "abstract", "as", "async", "await", "become", "box", "break", "const", "continue",
    "crate", "do", "dyn", "else", "enum", "extern", "false", "final", "fn", "for", "if", "impl",
    "in", "let", "loop", "macro", "match", "mod", "move", "mut", "override", "priv", "pub", "ref",
    "return", "Self", "self", "static", "struct", "super", "trait", "true", "try", "type",
    "typeof", "unsafe", "unsized", "use", "virtual", "where", "while", "yield"]

/-- Whether a word is no identifier. -/
def isKeyword (text : String) : Bool := reservedWords.contains text

/-- The keywords that no mark turns into an identifier. -/
def fixedKeywords : List String := ["_", "crate", "self", "Self", "super"]

/-- A word without the mark of a raw identifier. -/
def unraw (text : String) : String :=
  match text.toList with
  | 'r' :: '#' :: rest => String.ofList rest
  | _ => text

/-- Whether a word is an identifier, raw or not. -/
def isIdentifier (text : String) : Bool :=
  !isKeyword text && !fixedKeywords.contains (unraw text)

end Delegation
