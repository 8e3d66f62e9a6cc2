/-!
# Binary floating point words

A number of the 64-bit binary interchange format, held as its word. Every
finite magnitude is a whole multiple of the least positive one, so a
magnitude is a natural number in that unit and every operation here is exact
arithmetic on naturals followed by one rounding to nearest, ties to even.
No machine floating point operation takes part.
-/

namespace Delegation

/-- A quotient rounded to the nearest natural number, a tie going to the even one. -/
def roundQuotient (n d : Nat) : Nat :=
  let q := n / d
  let r := n % d
  if 2 * r < d then q
  else if d < 2 * r then q + 1
  else q + q % 2

/-- A number of the 64-bit binary format, given by its word. -/
structure Binary64 where
  /-- The sign bit, eleven bits of exponent and fifty-two of fraction. -/
  bits : UInt64
  deriving DecidableEq, Repr, Inhabited

namespace Binary64

/-- The value of the fraction field's hidden leading bit. -/
def hiddenBit : Nat := 0x10000000000000

/-- The exponent field of infinities and of words that are no number. -/
def topExponent : Nat := 2047

/-- The value of the sign bit. -/
def signBit : Nat := 0x8000000000000000

/-- Whether the sign bit is set. -/
def negative (x : Binary64) : Bool := signBit ≤ x.bits.toNat

/-- The word without its sign bit. -/
def magnitudeBits (x : Binary64) : Nat := x.bits.toNat % signBit

/-- The exponent field. -/
def exponentField (x : Binary64) : Nat := x.magnitudeBits / hiddenBit

/-- The fraction field. -/
def fractionField (x : Binary64) : Nat := x.magnitudeBits % hiddenBit

/-- Whether the word denotes no number. -/
def isNaN (x : Binary64) : Bool :=
  x.exponentField == topExponent && x.fractionField != 0

/-- Whether the word denotes one of the two infinities. -/
def isInfinite (x : Binary64) : Bool :=
  x.exponentField == topExponent && x.fractionField == 0

/-- Whether the word denotes one of the two zeros. -/
def isZero (x : Binary64) : Bool := x.magnitudeBits == 0

/-- The word of a sign and the remaining sixty-three bits. -/
def ofMagnitudeBits (negative : Bool) (magnitude : Nat) : Binary64 :=
  ⟨UInt64.ofNat (magnitude + if negative then signBit else 0)⟩

/-- The word that stands for every word that denotes no number. -/
def nan : Binary64 := ⟨0x7ff8000000000000⟩

/-- Distance of neighbouring numbers at this magnitude, in units of the least positive number. -/
def spacing (x : Binary64) : Nat := Nat.pow 2 (x.exponentField - 1)

/-- The magnitude of a finite number in units of the least positive number. -/
def units (x : Binary64) : Nat :=
  if x.exponentField = 0 then x.fractionField
  else (hiddenBit + x.fractionField) * x.spacing

/-- The word without its sign bit that is nearest to a natural number. -/
def magnitudeBitsOfNat (n : Nat) : Nat :=
  if n = 0 then 0
  else
    let scale := n.log2
    let significand :=
      if scale ≤ 52 then n * Nat.pow 2 (52 - scale) else roundQuotient n (Nat.pow 2 (scale - 52))
    (scale + 1022) * hiddenBit + significand

/-- The number nearest to an integer. -/
def ofInt (i : Int) : Binary64 := ofMagnitudeBits (i < 0) (magnitudeBitsOfNat i.natAbs)

/-- Numeric equality: the two zeros are equal, and a word that denotes no number equals nothing. -/
def numEq (x y : Binary64) : Bool :=
  !x.isNaN && !y.isNaN && (x == y || (x.isZero && y.isZero))

end Binary64

end Delegation
