import Delegation.Number.Binary64
/-!
# Shortest decimal text

The decimal with the fewest digits that lies in the interval of reals a
binary number stands for, and among those the nearest, an exact tie going
away from zero. The search is exact: a magnitude is a multiple of
`2 ^ (-1074)`, the interval's ends are multiples of `2 ^ (-1076)`, and every
decimal grid it may need is a multiple of `10 ^ (-340)`, so membership
compares two products of naturals.
-/

namespace Delegation

/-- A decimal `coefficient * 10 ^ (grade - 340)`. -/
structure Decimal where
  /-- The digits read as a natural number. -/
  coefficient : Nat
  /-- The power of ten, counted from `-340`. -/
  grade : Nat
  deriving DecidableEq, Repr

namespace Decimal

/-- Grade of the decimals that are whole numbers. -/
def wholeGrade : Nat := 340

/-- A decimal as a multiple of `10 ^ (-340)`. -/
def scaled (d : Decimal) : Nat := d.coefficient * Nat.pow 10 d.grade

/-- The same decimal without zeros at its end, as far as `fuel` digits go. -/
def trim : Nat → Decimal → Decimal
  | 0, d => d
  | fuel + 1, d =>
    if d.coefficient ≠ 0 ∧ d.coefficient % 10 = 0 then
      trim fuel ⟨d.coefficient / 10, d.grade + 1⟩
    else d

/-- Dropping zeros at the end keeps the decimal's value. -/
theorem scaled_trim (fuel : Nat) (d : Decimal) : (trim fuel d).scaled = d.scaled := by
  induction fuel generalizing d with
  | zero => rfl
  | succ fuel ih =>
    simp only [trim]
    split
    · rename_i h
      rw [ih]
      have hc : d.coefficient = d.coefficient / 10 * 10 := by omega
      simp only [scaled, Nat.pow_eq, Nat.pow_succ]
      rw [Nat.mul_comm (10 ^ d.grade) 10, ← Nat.mul_assoc, ← hc]
    · rfl

end Decimal

namespace Binary64

/-- Lower end of the interval a finite magnitude stands for, in quarters of the least positive
number. Under a power of two the neighbour below is only half as far away. -/
def lowerEnd (x : Binary64) : Nat :=
  if x.fractionField = 0 ∧ 1 < x.exponentField then 4 * x.units - x.spacing
  else 4 * x.units - 2 * x.spacing

/-- Upper end of the interval a finite magnitude stands for, in quarters of the least positive
number. -/
def upperEnd (x : Binary64) : Nat := 4 * x.units + 2 * x.spacing

/-- Whether the interval holds its ends: a tie is read as the even fraction. -/
def closedEnds (x : Binary64) : Bool := x.fractionField % 2 = 0

/-- Whether a decimal lies in the interval a finite magnitude stands for. -/
def readsBack (x : Binary64) (d : Decimal) : Bool :=
  let value := d.scaled * Nat.pow 2 1076
  let low := x.lowerEnd * Nat.pow 10 Decimal.wholeGrade
  let high := x.upperEnd * Nat.pow 10 Decimal.wholeGrade
  if x.closedEnds then low ≤ value && value ≤ high else low < value && value < high

/-- Grade of the first digit of a positive magnitude. -/
def leadingGrade (x : Binary64) : Nat :=
  (Nat.toDigits 10 (x.units * Nat.pow 10 Decimal.wholeGrade / Nat.pow 2 1074)).length - 1

/-- The decimal of one grade that stands for a magnitude, if one does: of the two neighbours on
that grid the one that reads back, and of two that do the nearer. -/
def nearestOfGrade? (x : Binary64) (grade : Nat) : Option Decimal :=
  let exact := x.units * Nat.pow 10 Decimal.wholeGrade
  let step := Nat.pow 10 grade * Nat.pow 2 1074
  let below : Decimal := ⟨exact / step, grade⟩
  let above : Decimal := ⟨exact / step + 1, grade⟩
  let upward := step ≤ 2 * (exact % step)
  match x.readsBack below, x.readsBack above with
  | true, true => some (if upward then above else below)
  | true, false => some below
  | false, true => some above
  | false, false => none

/-- The shortest decimal that stands for the magnitude of a finite number other than zero. No
number needs more than seventeen digits. -/
def shortest (x : Binary64) : Decimal :=
  let top := x.leadingGrade
  (((List.range 17).findSome? fun k => x.nearestOfGrade? (top - k)).getD ⟨x.units, 0⟩).trim 17

end Binary64

/-- Where decimals are written without an exponent. -/
structure DecimalStyle where
  /-- The least power of ten of a first digit that is written without an exponent. -/
  leastPlain : Int
  /-- The least power of ten beyond those written without an exponent. -/
  plainBound : Int

namespace Decimal

/-- The digits of a decimal, first one first. -/
def digits (d : Decimal) : List Char := Nat.toDigits 10 d.coefficient

/-- The power of ten of the first digit. -/
def exponent (d : Decimal) : Int := (d.grade : Int) - wholeGrade + (d.digits.length - 1 : Nat)

/-- Digits about a point, with at least one digit on either side. -/
def plain (d : Decimal) : List Char :=
  let e := d.exponent
  if e < 0 then '0' :: '.' :: (List.replicate ((-e).toNat - 1) '0' ++ d.digits)
  else
    let whole := e.toNat + 1
    let front := d.digits.take whole
    let rest := d.digits.drop whole
    front ++ List.replicate (whole - front.length) '0' ++
      '.' :: (if rest.isEmpty then ['0'] else rest)

/-- One digit, the others after a point if there are any, and the power of ten. -/
def scientific (d : Decimal) : List Char :=
  let rest := d.digits.drop 1
  d.digits.take 1 ++ (if rest.isEmpty then [] else '.' :: rest) ++
    'e' :: (toString d.exponent).toList

/-- A decimal as text. -/
def render (style : DecimalStyle) (d : Decimal) : List Char :=
  if style.leastPlain ≤ d.exponent ∧ d.exponent < style.plainBound then d.plain else d.scientific

end Decimal

namespace Binary64

/-- Numbers from `0.0001` up to `10 ^ 16` are written without an exponent. -/
def style : DecimalStyle := ⟨-4, 16⟩

/-- The text of a number without its sign. -/
def magnitudeText (x : Binary64) : List Char :=
  if x.isInfinite then "inf".toList
  else if x.isZero then "0.0".toList
  else x.shortest.render style

/-- The text of a number: its sign, then the shortest decimal that reads back as it. -/
def text (x : Binary64) : List Char :=
  if x.isNaN then "NaN".toList
  else if x.negative then '-' :: x.magnitudeText
  else x.magnitudeText

end Binary64

end Delegation
