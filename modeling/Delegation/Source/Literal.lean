import Delegation.Text.Blank
import Delegation.Text.Quoted
/-!
# Text literals

The text that a literal in source text stands for, and the literal written
for a text. A plain literal has escapes; a raw one stands for what is between
its delimiters.
-/

namespace Delegation.Source.Literal

/-- Where a reader of a plain literal is. -/
inductive Mode where
  /-- Among plain characters. -/
  | plain
  /-- After an escaped line end, where blanks are skipped. -/
  | skipping
  /-- Inside the braces of a code point. -/
  | code (value : Nat)

/-- The value of a hexadecimal digit. -/
def hexValue (c : Char) : Nat :=
  if '0' ≤ c ∧ c ≤ '9' then c.toNat - 48
  else if 'a' ≤ c ∧ c ≤ 'f' then c.toNat - 87
  else if 'A' ≤ c ∧ c ≤ 'F' then c.toNat - 55
  else 0

/-- The character of a one-letter escape. -/
def escaped (c : Char) : Char :=
  if c = 'n' then '\n' else if c = 'r' then '\r' else if c = 't' then '\t'
  else if c = '0' then '\x00' else c

/-- The characters that a plain literal stands for, read after its opening quote. -/
def decode : Mode → List Char → List Char
  | _, [] => []
  | .code n, c :: r =>
    if c = '\x7d' then Char.ofNat n :: decode .plain r
    else if c = '_' then decode (.code n) r
    else decode (.code (n * 16 + hexValue c)) r
  | .plain, '\\' :: 'x' :: a :: b :: r =>
    Char.ofNat (hexValue a * 16 + hexValue b) :: decode .plain r
  | .plain, '\\' :: 'u' :: _ :: r => decode (.code 0) r
  | .plain, '\\' :: '\n' :: r => decode .skipping r
  | .plain, '\\' :: '\r' :: r => decode .skipping r
  | .plain, '\\' :: c :: r => escaped c :: decode .plain r
  | .plain, '\r' :: '\n' :: r => '\n' :: decode .plain r
  | .plain, c :: r => if c = '"' then [] else c :: decode .plain r
  | .skipping, '\\' :: 'x' :: a :: b :: r =>
    Char.ofNat (hexValue a * 16 + hexValue b) :: decode .plain r
  | .skipping, '\\' :: 'u' :: _ :: r => decode (.code 0) r
  | .skipping, '\\' :: '\n' :: r => decode .skipping r
  | .skipping, '\\' :: '\r' :: r => decode .skipping r
  | .skipping, '\\' :: c :: r => escaped c :: decode .plain r
  | .skipping, c :: r =>
    if isBlank c then decode .skipping r
    else if c = '"' then [] else c :: decode .plain r

/-- Whether what follows is a quote and the number of number signs that end a raw literal. -/
def closesRaw (signs : Nat) : List Char → Bool
  | '"' :: r => (r.take signs).length = signs && (r.take signs).all (· = '#')
  | _ => false

/-- The characters of a raw literal up to its end. -/
def rawContent (signs : Nat) : List Char → List Char
  | [] => []
  | c :: r => if closesRaw signs (c :: r) then [] else c :: rawContent signs r

/-- The text that a literal stands for, if it is a text literal. -/
def value? (text : String) : Option String :=
  match text.toList with
  | '"' :: r => some (String.ofList (decode .plain r))
  | 'r' :: r =>
    let signs := (r.takeWhile (· = '#')).length
    some (String.ofList (rawContent signs ((r.drop signs).drop 1)))
  | _ => none

/-- The spelling of a character before another one: a NUL before an octal digit is written so
that the digit does not join it. -/
def spelling (c : Char) (following : List Char) : List Char :=
  if c = '\x00' ∧ following.head?.any (fun d => '0' ≤ d && d ≤ '7') then ['\\', 'x', '0', '0']
  else Quoted.escape c

/-- The spellings of characters in a row. -/
def encode : List Char → List Char
  | [] => []
  | c :: r => spelling c r ++ encode r

/-- The literal written for a text. -/
def ofText (s : String) : String := String.ofList ('"' :: (encode s.toList ++ ['"']))

end Delegation.Source.Literal
