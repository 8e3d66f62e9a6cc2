/-!
# Faults of source text

What a reader of source text expected and did not find. At the end of the
text some expectations say so.
-/

namespace Delegation.Source

/-- A fault of source text. -/
inductive SyntaxFault where
  /-- The text has no tokens. -/
  | tokens
  /-- An identifier was expected. -/
  | identifier (ended : Bool)
  /-- A keyword stands where an identifier was expected. -/
  | keyword (found : String)
  /-- An identifier or a keyword was expected. -/
  | word
  /-- An equals sign was expected. -/
  | equals
  /-- A text literal was expected. -/
  | text (ended : Bool)
  /-- No expression could be read, for a reason that its reader gives. -/
  | expression (reason : String)
  /-- An implementation block was expected. -/
  | block (ended : Bool)
  /-- A type was expected. -/
  | type (ended : Bool)
  /-- The body of an implementation block was expected. -/
  | braces (ended : Bool)
  /-- Something follows where the text should end. -/
  | leftover
  deriving DecidableEq, Repr

namespace SyntaxFault

/-- An expectation, which may say that the text has ended. -/
def expecting (ended : Bool) (what : String) : String :=
  (if ended then "unexpected end of input, " else "") ++ "expected " ++ what

/-- What a type may start with. -/
def typeStarts : String :=
  "one of: `for`, parentheses, `fn`, `unsafe`, `extern`, identifier, `::`, `<`, `dyn`, " ++
    "square brackets, `*`, `&`, `!`, `impl`, `_`, lifetime"

/-- The wording of a fault. -/
def message : SyntaxFault → String
  | tokens => "cannot parse string into token stream"
  | identifier ended => expecting ended "identifier"
  | keyword found => expecting false ("identifier, found keyword `" ++ found ++ "`")
  | word => expecting false "ident"
  | equals => expecting false "`=`"
  | text ended => expecting ended "string literal"
  | expression reason => reason
  | block ended => expecting ended "`impl`"
  | type ended => expecting ended typeStarts
  | braces ended => expecting ended "curly braces"
  | leftover => "unexpected token"

end SyntaxFault

end Delegation.Source
