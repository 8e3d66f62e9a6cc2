import Delegation.Source.Literal
import Delegation.Source.Token
import Delegation.Text.Identifier
/-!
# Tokens of source text

Source text cut into tokens and nested into trees. Blanks and comments set
tokens apart and leave no trace, save that a documentation comment counts as
the attribute that holds its text.
-/

namespace Delegation.Source

/-- A token before groups are nested. -/
inductive Lexeme where
  /-- A token that is no delimiter. -/
  | leaf (t : Tree)
  /-- The start of a group. -/
  | opening (d : Delimiter)
  /-- The end of a group. -/
  | closing (d : Delimiter)

namespace Lexeme

/-- Whether a character sets tokens apart: a blank, or a mark of the direction of writing. -/
def separates (c : Char) : Bool := isBlank c || c = '\u200e' || c = '\u200f'

/-- Whether an identifier may start with a character. -/
def startsWord (c : Char) : Bool :=
  c.isAlpha || c = '_' || (0x80 ≤ c.toNat && !separates c)

/-- Whether an identifier may go on with a character. -/
def continuesWord (c : Char) : Bool := startsWord c || c.isDigit

/-- The punctuation characters. -/
def isMark (c : Char) : Bool := "~!@#$%^&*-=+|;:,<.>/?'".toList.contains c

/-- Whether a punctuation character follows, which is no start of a comment. -/
def markFollows : List Char → Bool
  | '/' :: '/' :: _ | '/' :: '*' :: _ => false
  | c :: _ => isMark c
  | [] => false

/-- A word and what follows it, if one starts here. -/
def splitWord (cs : List Char) : List Char × List Char :=
  if cs.head?.any startsWord then cs.span continuesWord else ([], cs)

/-- A literal with the suffix that may follow it, and the rest. -/
def withSuffix (text rest : List Char) : List Lexeme × List Char :=
  let (suffix, rest) := splitWord rest
  ([.leaf (.literal (String.ofList (text ++ suffix)))], rest)

/-- A line and the rest, which starts with the line end. -/
def splitLine : List Char → List Char × List Char
  | [] => ([], [])
  | '\n' :: r => ([], '\n' :: r)
  | '\r' :: '\n' :: r => ([], '\n' :: r)
  | c :: r => let (line, rest) := splitLine r; (c :: line, rest)

/-- The inside of a comment between marks and the rest, read after the opening marks. Such
comments nest. -/
def splitBlock : Nat → List Char → Option (List Char × List Char)
  | _, [] => none
  | depth, '/' :: '*' :: r =>
    (splitBlock (depth + 1) r).map fun (inside, rest) => ('/' :: '*' :: inside, rest)
  | 0, '*' :: '/' :: r => some ([], r)
  | depth + 1, '*' :: '/' :: r =>
    (splitBlock depth r).map fun (inside, rest) => ('*' :: '/' :: inside, rest)
  | depth, c :: r => (splitBlock depth r).map fun (inside, rest) => (c :: inside, rest)

/-- The end of a plain literal, with its closing quote, and the rest. -/
def splitQuoted (quote : Char) : List Char → Option (List Char × List Char)
  | [] => none
  | '\\' :: c :: r =>
    (splitQuoted quote r).map fun (inside, rest) => ('\\' :: c :: inside, rest)
  | c :: r =>
    if c = quote then some ([c], r)
    else (splitQuoted quote r).map fun (inside, rest) => (c :: inside, rest)

/-- A raw literal after its first letters, and the rest. -/
def splitRaw (cs : List Char) : Option (List Char × List Char) :=
  let signs := (cs.takeWhile (· = '#')).length
  match cs.drop signs with
  | '"' :: r =>
    let inside := Literal.rawContent signs r
    if inside.length < r.length then
      let size := inside.length + 1 + signs
      some (cs.take signs ++ '"' :: r.take size, r.drop size)
    else none
  | _ => none

/-- The attribute of a documentation comment. -/
def documentation (inner : Bool) (text : List Char) : List Lexeme :=
  [.leaf (.alone '#')] ++ (if inner then [.leaf (.alone '!')] else []) ++
    [.opening .bracket, .leaf (.word "doc"), .leaf (.alone '='),
      .leaf (.literal (Literal.ofText (String.ofList text))), .closing .bracket]

/-- What a comment over the rest of a line leaves. -/
def ofLine (line : List Char) : List Lexeme :=
  match line with
  | '/' :: '/' :: '!' :: text => documentation true text
  | '/' :: '/' :: '/' :: '/' :: _ => []
  | '/' :: '/' :: '/' :: text => documentation false text
  | _ => []

/-- What the inside of a comment between marks leaves. Of stars only the first may stand alone
before the text. -/
def ofBlock (inside : List Char) : List Lexeme :=
  match inside with
  | '!' :: text => documentation true text
  | ['*'] | '*' :: '*' :: _ => []
  | '*' :: text => documentation false text
  | _ => []

/-- The digits of a number without a fraction, after the mark of its base. -/
def wholeNumber (cs : List Char) : List Char × List Char :=
  match cs with
  | '0' :: 'x' :: r =>
    let (digits, rest) := r.span fun c =>
      c.isDigit || ('a' ≤ c && c ≤ 'f') || ('A' ≤ c && c ≤ 'F') || c = '_'
    ('0' :: 'x' :: digits, rest)
  | '0' :: 'o' :: r =>
    let (digits, rest) := r.span fun c => c.isDigit || c = '_'
    ('0' :: 'o' :: digits, rest)
  | '0' :: 'b' :: r =>
    let (digits, rest) := r.span fun c => c.isDigit || c = '_'
    ('0' :: 'b' :: digits, rest)
  | _ => cs.span fun c => c.isDigit || c = '_'

/-- The exponent of a number after its letter, if it has digits. -/
def exponent? (cs : List Char) : Option (List Char × List Char) :=
  let (sign, r) := match cs with
    | '+' :: r => (['+'], r)
    | '-' :: r => (['-'], r)
    | _ => ([], cs)
  let (digits, rest) := r.span fun c => c.isDigit || c = '_'
  if digits.any Char.isDigit then some (sign ++ digits, rest) else none

/-- The digits of a number with a fraction or an exponent, if this is one. A point before another
point or a word is no part of a number. -/
def fraction? (cs : List Char) : Option (List Char × List Char) :=
  let (whole, r) := cs.span fun c => c.isDigit || c = '_'
  let scaled (before r : List Char) : Option (List Char × List Char) :=
    match r with
    | 'e' :: r => (exponent? r).map fun (e, rest) => (before ++ 'e' :: e, rest)
    | 'E' :: r => (exponent? r).map fun (e, rest) => (before ++ 'E' :: e, rest)
    | _ => none
  match r with
  | '.' :: after =>
    if after.head?.any fun c => c = '.' || startsWord c then none
    else
      let (digits, rest) := after.span fun c => c.isDigit || c = '_'
      let before := whole ++ '.' :: digits
      some ((scaled before rest).getD (before, rest))
  | _ => scaled whole r

/-- A number and the rest. -/
def number (cs : List Char) : List Lexeme × List Char :=
  let (digits, rest) := (fraction? cs).getD (wholeNumber cs)
  withSuffix digits rest

/-- A character literal after its opening mark, and the rest, if this is one. -/
def character? (cs : List Char) : Option (List Char × List Char) :=
  match cs with
  | '\\' :: _ => splitQuoted '\'' cs
  | c :: '\'' :: r => some ([c, '\''], r)
  | _ => none

/-- The first token and the rest. What sets tokens apart gives no token. -/
def scan (cs : List Char) : Option (List Lexeme × List Char) :=
  match cs with
  | [] => some ([], [])
  | '/' :: '/' :: _ =>
    let (line, rest) := splitLine cs
    some (ofLine line, rest)
  | '/' :: '*' :: '*' :: '/' :: r => some ([], r)
  | '/' :: '*' :: r => (splitBlock 0 r).map fun (inside, rest) => (ofBlock inside, rest)
  | '(' :: r => some ([.opening .paren], r)
  | ')' :: r => some ([.closing .paren], r)
  | '[' :: r => some ([.opening .bracket], r)
  | ']' :: r => some ([.closing .bracket], r)
  | '"' :: r => (splitQuoted '"' r).map fun (t, rest) => withSuffix ('"' :: t) rest
  | '\'' :: r =>
    match character? r with
    | some (t, rest) => some (withSuffix ('\'' :: t) rest)
    | none => some ([.leaf (.mark '\'' true)], r)
  | c :: r =>
    if c = '\x7b' then some ([.opening .brace], r)
    else if c = '\x7d' then some ([.closing .brace], r)
    else if separates c then some ([], r)
    else if c.isDigit then some (number cs)
    else if startsWord c then
      let (letters, after) := cs.span continuesWord
      let whole : List Lexeme × List Char := ([.leaf (.word (String.ofList letters))], after)
      match letters, after with
      | ['r'], '"' :: _ | ['b', 'r'], '"' :: _ | ['c', 'r'], '"' :: _ =>
        (splitRaw after).map fun (t, rest) => withSuffix (letters ++ t) rest
      | ['b', 'r'], '#' :: _ | ['c', 'r'], '#' :: _ =>
        (splitRaw after).map fun (t, rest) => withSuffix (letters ++ t) rest
      | ['r'], '#' :: more =>
        match splitRaw after with
        | some (t, rest) => some (withSuffix ('r' :: t) rest)
        | none =>
          let (raw, rest) := splitWord more
          if raw.isEmpty then some whole
          else if fixedKeywords.contains (String.ofList raw) then none
          else some ([.leaf (.word (String.ofList ('r' :: '#' :: raw)))], rest)
      | ['b'], '"' :: more | ['c'], '"' :: more =>
        (splitQuoted '"' more).map fun (t, rest) => withSuffix (letters ++ '"' :: t) rest
      | ['b'], '\'' :: more =>
        (character? more).map fun (t, rest) => withSuffix ('b' :: '\'' :: t) rest
      | _, _ => some whole
    else if isMark c then some ([.leaf (.mark c (markFollows r))], r)
    else none

/-- All tokens of source text, or nothing if some part of it is no token. -/
def all (cs : List Char) : Option (List Lexeme) :=
  if cs.isEmpty then some []
  else
    match scan cs with
    | none => none
    | some (found, rest) =>
      if rest.length < cs.length then (all rest).map (found ++ ·) else none
termination_by cs.length

/-- The trees of tokens, nested by their delimiters. Each open group keeps its delimiter and what
came before it, the latest tree first. -/
def nest : List (Delimiter × List Tree) → List Tree → List Lexeme → Option (List Tree)
  | [], done, [] => some done.reverse
  | _ :: _, _, [] => none
  | stack, done, .leaf t :: r => nest stack (t :: done) r
  | stack, done, .opening d :: r => nest ((d, done) :: stack) [] r
  | [], _, .closing _ :: _ => none
  | (d, before) :: stack, done, .closing e :: r =>
    if d = e then nest stack (.group d done.reverse :: before) r else none

end Lexeme

/-- The characters of source text without the mark of byte order that may stand before them. -/
def withoutOrderMark : List Char → List Char
  | '\ufeff' :: cs => cs
  | cs => cs

/-- The token trees of source text, or nothing if it has none. -/
def trees? (text : String) : Option (List Tree) :=
  (Lexeme.all (withoutOrderMark text.toList)).bind (Lexeme.nest [] [])

end Delegation.Source
