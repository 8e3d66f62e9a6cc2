import Mathlib.Tactic.Linarith
import Mathlib.Tactic.Ring
import Delegation.Number.Shortest
/-!
# Reading a decimal back

The intervals that finite magnitudes stand for lie one after the other: where
one ends the next one begins. Of two neighbours only the even one holds the
point they share, so a decimal lies in the interval of one magnitude at most.
And it always lies in the interval of the magnitude it was found for: a grid on
which the magnitude has seventeen digits is finer than the distance of
neighbouring magnitudes, so one of the two grid points beside a magnitude is
nearer than half that distance.
-/

namespace Delegation.Binary64

/-- There is a number for every word without a sign. -/
theorem exists_magnitudeBits {m : Nat} (h : m < signBit) : ∃ x : Binary64, x.magnitudeBits = m := by
  refine ⟨⟨UInt64.ofNat m⟩, ?_⟩
  have hm : m < 2 ^ 64 := lt_trans h (by decide)
  simp only [magnitudeBits, UInt64.toNat_ofNat', Nat.mod_eq_of_lt hm, Nat.mod_eq_of_lt h]

/-- The word without its sign has sixty-three bits. -/
theorem magnitudeBits_lt (x : Binary64) : x.magnitudeBits < signBit := Nat.mod_lt _ (by decide)

theorem spacing_pos (x : Binary64) : 0 < x.spacing := Nat.pow_pos (by decide)

/-- A significand has at most fifty-three bits. -/
theorem units_lt (x : Binary64) : x.units < 2 ^ 53 * x.spacing := by
  have hfraction : x.fractionField < hiddenBit := Nat.mod_lt _ (by decide)
  have hpos := x.spacing_pos
  unfold units
  split
  · calc x.fractionField < 2 ^ 53 * 1 := lt_trans hfraction (by decide)
      _ ≤ 2 ^ 53 * x.spacing := Nat.mul_le_mul_left _ hpos
  · refine Nat.mul_lt_mul_of_pos_right ?_ hpos
    have hbit : hiddenBit = 2 ^ 52 := rfl
    omega

section Neighbours

variable {x y : Binary64}

/-- The next number has the next fraction, or the fraction zero under the next exponent. -/
theorem fields_next (h : y.magnitudeBits = x.magnitudeBits + 1) :
    (y.exponentField = x.exponentField ∧ y.fractionField = x.fractionField + 1) ∨
      (y.exponentField = x.exponentField + 1 ∧ y.fractionField = 0 ∧
        x.fractionField + 1 = hiddenBit) := by
  unfold exponentField fractionField hiddenBit
  omega

/-- The next number is one spacing away. -/
theorem units_next (h : y.magnitudeBits = x.magnitudeBits + 1) : y.units = x.units + x.spacing := by
  rcases fields_next h with ⟨he, hf⟩ | ⟨he, hf, hcarry⟩
  · have hspacing : y.spacing = x.spacing := by rw [spacing, spacing, he]
    simp only [units, he, hf, hspacing]
    split
    · rename_i hzero
      simp [spacing, hzero]
    · ring
  · by_cases hzero : x.exponentField = 0
    · simp [units, spacing, he, hf, hzero, hcarry]
    · obtain ⟨k, hk⟩ := Nat.exists_eq_succ_of_ne_zero hzero
      simp only [units, spacing, he, hf, hk, Nat.succ_ne_zero, if_false, Nat.add_sub_cancel,
        Nat.succ_eq_add_one, Nat.pow_eq]
      have hbit : hiddenBit + hiddenBit = hiddenBit + x.fractionField + 1 := by omega
      calc (hiddenBit + 0) * 2 ^ (k + 1) = (hiddenBit + hiddenBit) * 2 ^ k := by ring
        _ = (hiddenBit + x.fractionField) * 2 ^ k + 2 ^ k := by rw [hbit]; ring

/-- The spacing is the same after the next number, or twice as wide if that number is the least of
its exponent. -/
theorem spacing_next (h : y.magnitudeBits = x.magnitudeBits + 1) :
    y.spacing = if y.fractionField = 0 ∧ 1 < y.exponentField then 2 * x.spacing else x.spacing := by
  rcases fields_next h with ⟨he, hf⟩ | ⟨he, hf, -⟩
  · rw [if_neg (by omega), spacing, spacing, he]
  · by_cases hzero : x.exponentField = 0
    · rw [if_neg (by omega), spacing, spacing, he, hzero]
    · obtain ⟨k, hk⟩ := Nat.exists_eq_succ_of_ne_zero hzero
      rw [if_pos (by omega), spacing, spacing, he, hk]
      simp only [Nat.succ_eq_add_one, Nat.add_sub_cancel, Nat.pow_eq]
      ring

/-- Where the interval of a number ends that of the next one begins. -/
theorem lowerEnd_next (h : y.magnitudeBits = x.magnitudeBits + 1) : y.lowerEnd = x.upperEnd := by
  have hspacing := spacing_next h
  unfold lowerEnd upperEnd
  rw [units_next h]
  split <;> simp_all <;> omega

theorem lowerEnd_lt_upperEnd (x : Binary64) : x.lowerEnd < x.upperEnd := by
  have hpos := x.spacing_pos
  unfold lowerEnd upperEnd
  split <;> omega

/-- The interval of a greater number begins where that of a lesser one ends, or later. -/
theorem upperEnd_le_lowerEnd (h : x.magnitudeBits < y.magnitudeBits) :
    x.upperEnd ≤ y.lowerEnd ∧
      (x.upperEnd = y.lowerEnd → y.magnitudeBits = x.magnitudeBits + 1) := by
  obtain ⟨k, hk⟩ := Nat.exists_eq_add_of_lt h
  induction k generalizing y with
  | zero => exact ⟨(lowerEnd_next hk).ge, fun _ => hk⟩
  | succ k ih =>
    have hbound : y.magnitudeBits < signBit := y.magnitudeBits_lt
    obtain ⟨z, hz⟩ := exists_magnitudeBits (m := x.magnitudeBits + k + 1) (by omega)
    have hbefore : x.upperEnd ≤ z.lowerEnd := (ih (by omega) hz).1
    have hnext : y.lowerEnd = z.upperEnd := lowerEnd_next (by omega)
    have hlt := z.lowerEnd_lt_upperEnd
    exact ⟨by omega, fun _ => by omega⟩

end Neighbours

/-- The least positive number, in a measure of which it and the decimals are whole multiples. -/
def unitSize : Nat := Nat.pow 10 Decimal.wholeGrade

/-- The distance of decimals of grade zero, in the same measure. -/
def gridSize : Nat := Nat.pow 2 1074

theorem pow_wholeGrade : Nat.pow 10 Decimal.wholeGrade = unitSize := by
  unfold unitSize
  rfl

theorem pow_gridSize : Nat.pow 2 1074 = gridSize := by
  unfold gridSize
  rfl

theorem unitSize_pos : 0 < unitSize := by decide +kernel

theorem gridSize_pos : 0 < gridSize := by decide +kernel

/-- A unit has seventeen digits before the point on the grid of grade zero. -/
theorem gridSize_le_unitSize : 10 ^ 16 * gridSize ≤ unitSize := by decide +kernel

/-- A decimal is read back as a number when it lies in the interval, the ends belonging to an even
one only. -/
theorem readsBack_iff (x : Binary64) (d : Decimal) :
    x.readsBack d = true ↔
      x.lowerEnd * unitSize ≤ 4 * (d.scaled * gridSize) ∧
        4 * (d.scaled * gridSize) ≤ x.upperEnd * unitSize ∧
        (x.magnitudeBits % 2 = 1 →
          4 * (d.scaled * gridSize) ≠ x.lowerEnd * unitSize ∧
            4 * (d.scaled * gridSize) ≠ x.upperEnd * unitSize) := by
  have hparity : x.fractionField % 2 = x.magnitudeBits % 2 := by
    unfold fractionField hiddenBit
    omega
  have hquarter : Nat.pow 2 1076 = gridSize * 4 := by decide +kernel
  have hvalue : d.scaled * Nat.pow 2 1076 = 4 * (d.scaled * gridSize) := by rw [hquarter]; ring
  simp only [readsBack, closedEnds, hparity, hvalue, pow_wholeGrade]
  by_cases heven : x.magnitudeBits % 2 = 0
  · simp [heven]
  · simp only [heven, decide_false, Bool.false_eq_true, if_false, Bool.and_eq_true,
      decide_eq_true_eq]
    omega

/-- A decimal in the interior of the interval is read back. -/
theorem readsBack_of_inside {x : Binary64} {d : Decimal}
    (hlow : x.lowerEnd * unitSize < 4 * (d.scaled * gridSize))
    (hhigh : 4 * (d.scaled * gridSize) < x.upperEnd * unitSize) : x.readsBack d = true :=
  (x.readsBack_iff d).mpr ⟨hlow.le, hhigh.le, fun _ => ⟨hlow.ne', hhigh.ne⟩⟩

/-- No decimal is read back as two numbers of which one is less. -/
theorem not_readsBack_of_lt {x y : Binary64} {d : Decimal} (h : x.magnitudeBits < y.magnitudeBits)
    (hx : x.readsBack d = true) : y.readsBack d = false := by
  refine Bool.eq_false_iff.mpr fun hy => ?_
  obtain ⟨-, hhigh, hxodd⟩ := (x.readsBack_iff d).mp hx
  obtain ⟨hlow, -, hyodd⟩ := (y.readsBack_iff d).mp hy
  obtain ⟨hle, hadjacent⟩ := upperEnd_le_lowerEnd h
  have hends : x.upperEnd = y.lowerEnd :=
    le_antisymm hle (Nat.le_of_mul_le_mul_right (hlow.trans hhigh) unitSize_pos)
  -- Both hold the point they share, but only one of two neighbours is even.
  have hnext := hadjacent hends
  rw [hends] at hhigh hxodd
  have hshared := le_antisymm hhigh hlow
  rcases Nat.mod_two_eq_zero_or_one x.magnitudeBits with heven | hodd
  · exact (hyodd (by omega)).1 hshared
  · exact (hxodd hodd).2 hshared

/-- A decimal is read back as one magnitude only. -/
theorem magnitudeBits_eq_of_readsBack {x y : Binary64} {d : Decimal} (hx : x.readsBack d = true)
    (hy : y.readsBack d = true) : x.magnitudeBits = y.magnitudeBits := by
  rcases Nat.lt_trichotomy x.magnitudeBits y.magnitudeBits with h | h | h
  · exact absurd hy (by simp [not_readsBack_of_lt h hx])
  · exact h
  · exact absurd hx (by simp [not_readsBack_of_lt h hy])

/-- Decimals of the same value are read back alike. -/
theorem readsBack_congr (x : Binary64) {d d' : Decimal} (h : d.scaled = d'.scaled) :
    x.readsBack d = x.readsBack d' := by
  unfold readsBack
  rw [h]

/-- A decimal nearer to a magnitude than half the distance to the neighbour on its side is read
back. -/
theorem readsBack_of_near {x : Binary64} {d : Decimal} (hpos : 0 < d.scaled * gridSize)
    (hlow : 4 * (x.units * unitSize) < 4 * (d.scaled * gridSize) +
      (if x.fractionField = 0 ∧ 1 < x.exponentField then 1 else 2) * (x.spacing * unitSize))
    (hhigh : 4 * (d.scaled * gridSize) < 4 * (x.units * unitSize) + 2 * (x.spacing * unitSize)) :
    x.readsBack d = true := by
  refine readsBack_of_inside ?low ?high
  case low =>
    unfold lowerEnd
    split at hlow
    · rw [if_pos ‹_›, Nat.sub_mul, Nat.mul_assoc]
      omega
    · rw [if_neg ‹_›, Nat.sub_mul, Nat.mul_assoc, Nat.mul_assoc]
      omega
  case high =>
    rw [upperEnd, Nat.add_mul, Nat.mul_assoc, Nat.mul_assoc]
    exact hhigh

/-- The grid point at or below a magnitude. -/
def gridPoint (x : Binary64) (grade : Nat) : Decimal :=
  ⟨x.units * unitSize / (10 ^ grade * gridSize), grade⟩

/-- The grid point above a magnitude. -/
def gridPointAbove (x : Binary64) (grade : Nat) : Decimal :=
  ⟨x.units * unitSize / (10 ^ grade * gridSize) + 1, grade⟩

/-- What is found on a grid is read back; nothing is found only if neither grid point beside the
magnitude is read back. -/
theorem nearestOfGrade?_cases (x : Binary64) (grade : Nat) :
    (∃ d, x.nearestOfGrade? grade = some d ∧ x.readsBack d = true) ∨
      (x.nearestOfGrade? grade = none ∧ x.readsBack (x.gridPoint grade) = false ∧
        x.readsBack (x.gridPointAbove grade) = false) := by
  have hgrid : Nat.pow 10 grade = 10 ^ grade := Nat.pow_eq
  unfold nearestOfGrade?
  dsimp only
  rw [pow_wholeGrade, pow_gridSize, hgrid, ← gridPoint, ← gridPointAbove]
  cases hbelow : x.readsBack (x.gridPoint grade) with
  | true =>
    cases habove : x.readsBack (x.gridPointAbove grade) with
    | true =>
      refine .inl ⟨_, rfl, ?_⟩
      split
      · exact habove
      · exact hbelow
    | false => exact .inl ⟨_, rfl, hbelow⟩
  | false =>
    cases habove : x.readsBack (x.gridPointAbove grade) with
    | true => exact .inl ⟨_, rfl, habove⟩
    | false => exact .inr ⟨rfl, rfl, rfl⟩

/-- On a grid on which a magnitude has seventeen digits one of the two grid points beside it is read
back. -/
theorem readsBack_gridPoint_or (x : Binary64) {grade : Nat}
    (hfine : 10 ^ 16 * (10 ^ grade * gridSize) ≤ x.units * unitSize) :
    x.readsBack (x.gridPoint grade) = true ∨ x.readsBack (x.gridPointAbove grade) = true := by
  have hstep : 0 < 10 ^ grade * gridSize := Nat.mul_pos (Nat.pow_pos (by decide)) gridSize_pos
  have hwidth : x.units * unitSize < 2 ^ 53 * (x.spacing * unitSize) := by
    rw [← Nat.mul_assoc]
    exact Nat.mul_lt_mul_of_pos_right x.units_lt unitSize_pos
  have hbelow : (x.gridPoint grade).scaled * gridSize =
      x.units * unitSize / (10 ^ grade * gridSize) * (10 ^ grade * gridSize) := by
    rw [gridPoint, Decimal.scaled, Nat.pow_eq, Nat.mul_assoc]
  have habove : (x.gridPointAbove grade).scaled * gridSize =
      (x.gridPoint grade).scaled * gridSize + 10 ^ grade * gridSize := by
    rw [hbelow, gridPointAbove, Decimal.scaled, Nat.pow_eq, Nat.mul_assoc, Nat.add_mul, Nat.one_mul]
  have hrest := Nat.div_add_mod' (x.units * unitSize) (10 ^ grade * gridSize)
  have hmod := Nat.mod_lt (x.units * unitSize) hstep
  rw [← hbelow] at hrest
  by_cases hhalved : x.fractionField = 0 ∧ 1 < x.exponentField
  case pos =>
    -- The neighbour below is nearer, but the magnitude is the least of its exponent, so that the
    -- grid is finer than half the distance to the neighbour above.
    have hunits : x.units * unitSize = 2 ^ 52 * (x.spacing * unitSize) := by
      rw [units, if_neg (by omega), hhalved.1, Nat.mul_assoc]
      rfl
    refine .inr (readsBack_of_near ?_ ?_ ?_)
    · omega
    · rw [if_pos hhalved]; omega
    · omega
  case neg =>
    by_cases hnear : 2 * (x.units * unitSize) <
        2 * ((x.gridPoint grade).scaled * gridSize) + x.spacing * unitSize
    · refine .inl (readsBack_of_near ?_ ?_ ?_)
      · omega
      · rw [if_neg hhalved]; omega
      · omega
    · refine .inr (readsBack_of_near ?_ ?_ ?_)
      · omega
      · rw [if_neg hhalved]; omega
      · omega

/-- The first digit of a magnitude is found on the grid of its leading grade. -/
theorem pow_leadingGrade_le {x : Binary64} (hx : 0 < x.units) :
    16 ≤ x.leadingGrade ∧ 10 ^ x.leadingGrade * gridSize ≤ x.units * unitSize := by
  have hlead : x.leadingGrade =
      (Nat.toDigits 10 (x.units * unitSize / gridSize)).length - 1 := by
    rw [leadingGrade, pow_wholeGrade, pow_gridSize]
  have hwhole : 10 ^ 16 ≤ x.units * unitSize / gridSize := by
    rw [Nat.le_div_iff_mul_le gridSize_pos]
    exact gridSize_le_unitSize.trans (Nat.le_mul_of_pos_left _ hx)
  have hlength (k : Nat) (hk : 0 < k) :
      (Nat.toDigits 10 (x.units * unitSize / gridSize)).length ≤ k ↔
        x.units * unitSize / gridSize < 10 ^ k :=
    Nat.length_toDigits_le_iff (by decide) hk
  constructor
  · have := (hlength 16 (by decide)).not.mpr (by omega)
    omega
  · rw [← Nat.le_div_iff_mul_le gridSize_pos, hlead]
    have := (hlength 16 (by decide)).not.mpr (by omega)
    refine Nat.le_of_not_lt fun hlt => ?_
    have := (hlength _ (by omega)).mpr hlt
    omega

/-- The decimal found for a magnitude other than zero is read back as it. -/
theorem readsBack_shortest {x : Binary64} (hx : 0 < x.units) : x.readsBack x.shortest = true := by
  obtain ⟨htop, hlead⟩ := pow_leadingGrade_le hx
  have hfine : 10 ^ 16 * (10 ^ (x.leadingGrade - 16) * gridSize) ≤ x.units * unitSize := by
    rw [← Nat.mul_assoc, ← pow_add, Nat.add_sub_cancel' htop]
    exact hlead
  have hlast : (x.nearestOfGrade? (x.leadingGrade - 16)).isSome = true := by
    rcases x.nearestOfGrade?_cases (x.leadingGrade - 16) with ⟨d, hd, -⟩ | ⟨-, hbelow, habove⟩
    · rw [hd]; rfl
    · rcases x.readsBack_gridPoint_or hfine with h | h <;> simp_all
  have hfound : ((List.range 17).findSome? fun k => x.nearestOfGrade? (x.leadingGrade - k)).isSome =
      true :=
    List.findSome?_isSome_iff.mpr ⟨16, by decide, hlast⟩
  obtain ⟨d, hd⟩ := Option.isSome_iff_exists.mp hfound
  obtain ⟨k, -, hk⟩ := List.exists_of_findSome?_eq_some hd
  have hshort : x.shortest = d.trim 17 := by
    unfold shortest
    dsimp only
    rw [hd, Option.getD_some]
  rw [hshort, x.readsBack_congr (d.scaled_trim 17)]
  rcases x.nearestOfGrade?_cases (x.leadingGrade - k) with ⟨d', hd', hreads⟩ | ⟨hnone, -⟩
  · rw [hk] at hd'
    exact Option.some.inj hd' ▸ hreads
  · rw [hk] at hnone
    cases hnone

end Delegation.Binary64
