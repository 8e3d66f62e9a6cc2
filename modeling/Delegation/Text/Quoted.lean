import Delegation.Text.CodeRange
/-!
# Quoted text

Text between double quotes, with a backslash before what could end it or be
misread. Every character has one spelling of its own, so a quoted text can be
read back.
-/

namespace Delegation.Quoted

/-- Spelling of a character by its code point. -/
def byNumber (c : Char) : List Char :=
  '\\' :: 'u' :: '\x7b' :: (Nat.toDigits 16 c.toNat ++ ['\x7d'])

/-- Spelling of one character inside quotes. -/
def escape (c : Char) : List Char :=
  if c = '\x00' then ['\\', '0']
  else if c = '\t' then ['\\', 't']
  else if c = '\n' then ['\\', 'n']
  else if c = '\r' then ['\\', 'r']
  else if c = '"' ∨ c = '\\' then ['\\', c]
  else if ' ' ≤ c ∧ c < '\x7f' then [c]
  else if isExtending c || isUnprintable c then byNumber c
  else [c]

/-- The spellings of a list of characters, one after the other. -/
def escapeAll (cs : List Char) : List Char := cs.flatMap escape

/-- A text between double quotes. -/
def quote (s : String) : String := String.ofList ('"' :: (escapeAll s.toList ++ ['"']))

end Delegation.Quoted
