import Delegation.Proofs.Interval
/-!
# Text of numbers

The text of a decimal can be read back: its digits before and after the point
make a natural number, and the power of ten is the written one less the digits
after the point. So two decimals with the same text have the same value, and
since the shortest decimal of a number is read back as that number alone, two
numbers with the same text are the same, the words that denote no number apart,
which all have one text. No text of a floating point number is one of an
integer: it has a point, an exponent or a letter.
-/

namespace Delegation

/-- The integer that digits, maybe after a minus sign, are read as. -/
def readInt : List Char → Int
  | '-' :: digits => -(Nat.ofDigitChars 10 digits 0 : Nat)
  | digits => (Nat.ofDigitChars 10 digits 0 : Nat)

/-- The digits of a natural number are digits. -/
theorem isDigit_of_mem_digits {n : Nat} {c : Char} (h : c ∈ Nat.toDigits 10 n) :
    c.isDigit = true :=
  Nat.isDigit_of_mem_toDigits (by decide) (by decide) h

/-- The text of an integer is that of its magnitude, after a minus sign if it is negative. -/
theorem toList_toString_int (i : Int) :
    (toString i).toList =
      (if i < 0 then ['-'] else []) ++ Nat.toDigits 10 i.natAbs := by
  cases i with
  | ofNat n =>
    rw [if_neg (by simp), Int.toString_eq_repr]
    simp [Int.repr, Nat.repr_eq_ofList_toDigits]
  | negSucc n =>
    rw [if_pos (Int.negSucc_lt_zero n), Int.toString_eq_repr]
    simp [Int.repr, Nat.repr_eq_ofList_toDigits, Int.natAbs_negSucc]

/-- The text of an integer is made of digits and a sign. -/
theorem mem_toString_int {i : Int} {c : Char} (h : c ∈ (toString i).toList) :
    c.isDigit = true ∨ c = '-' := by
  rw [toList_toString_int, List.mem_append] at h
  rcases h with h | h
  · split at h
    · exact .inr (List.mem_singleton.mp h)
    · cases h
  · exact .inl (isDigit_of_mem_digits h)

/-- The text of an integer is read as that integer. -/
theorem readInt_toString (i : Int) : readInt (toString i).toList = i := by
  have hvalue : Nat.ofDigitChars 10 (Nat.toDigits 10 i.natAbs) 0 = i.natAbs :=
    Nat.ofDigitChars_toDigits (by decide) (by decide)
  rw [toList_toString_int]
  split
  · simp only [List.singleton_append, readInt, hvalue]
    omega
  · cases hdigits : Nat.toDigits 10 i.natAbs with
    | nil => exact absurd hdigits Nat.toDigits_ne_nil
    | cons c cs =>
      have hc : c.isDigit = true := isDigit_of_mem_digits (hdigits ▸ List.mem_cons_self ..)
      have hsign : c ≠ '-' := by rintro rfl; exact absurd hc (by decide)
      rw [hdigits] at hvalue
      unfold readInt
      split
      · rename_i heq
        exact absurd (List.cons.inj heq).1 hsign
      · rw [List.nil_append, hvalue]
        omega

/-- A text up to a character, or the whole text if it does not occur. -/
def upTo (c : Char) (text : List Char) : List Char := text.takeWhile (· != c)

/-- A text from behind a character on. -/
def behind (c : Char) (text : List Char) : List Char := (text.dropWhile (· != c)).drop 1

section Splitting

variable {c : Char} {front : List Char} (h : c ∉ front) (back : List Char)

include h

theorem bne_of_not_mem : ∀ a ∈ front, (a != c) = true := fun _ ha =>
  bne_iff_ne.mpr fun hac => h (hac ▸ ha)

theorem upTo_append : upTo c (front ++ c :: back) = front := by
  rw [upTo, List.takeWhile_append_of_pos (bne_of_not_mem h)]
  simp

theorem behind_append : behind c (front ++ c :: back) = back := by
  rw [behind, List.dropWhile_append_of_pos (bne_of_not_mem h)]
  simp

theorem upTo_of_not_mem : upTo c front = front := by
  have htake : (front ++ []).takeWhile (· != c) = front ++ [].takeWhile (· != c) :=
    List.takeWhile_append_of_pos (bne_of_not_mem h)
  simpa [upTo] using htake

theorem behind_of_not_mem : behind c front = [] := by
  have hdrop : (front ++ []).dropWhile (· != c) = [].dropWhile (· != c) :=
    List.dropWhile_append_of_pos (bne_of_not_mem h)
  rw [List.append_nil] at hdrop
  rw [behind, hdrop]
  rfl

end Splitting

namespace Decimal

/-- The value that digits with a point and an exponent are read as, as a multiple of
`10 ^ (-340)`. -/
def readText (text : List Char) : Nat :=
  let whole := upTo '.' (upTo 'e' text)
  let fraction := behind '.' (upTo 'e' text)
  let power := readInt (behind 'e' text)
  Nat.ofDigitChars 10 (whole ++ fraction) 0 *
    10 ^ ((wholeGrade : Int) + power - fraction.length).toNat

/-- Neither the point nor the sign of an exponent is a digit. -/
theorem not_mem_of_isDigit {text : List Char} (h : ∀ c ∈ text, c.isDigit = true) :
    'e' ∉ text ∧ '.' ∉ text :=
  ⟨fun he => absurd (h _ he) (by decide), fun hp => absurd (h _ hp) (by decide)⟩

section Reading

variable {whole fraction : List Char} (hwhole : ∀ c ∈ whole, c.isDigit = true)
  (hfraction : ∀ c ∈ fraction, c.isDigit = true)

include hwhole hfraction

/-- Digits about a point are read as the number they make, less a place for each digit after the
point. -/
theorem readText_point :
    readText (whole ++ '.' :: fraction) =
      Nat.ofDigitChars 10 (whole ++ fraction) 0 * 10 ^ (wholeGrade - fraction.length) := by
  have hmark : 'e' ∉ whole ++ '.' :: fraction := by
    simp [(not_mem_of_isDigit hwhole).1, (not_mem_of_isDigit hfraction).1]
  have hpoint := (not_mem_of_isDigit hwhole).2
  simp only [readText, upTo_of_not_mem hmark, behind_of_not_mem hmark, upTo_append hpoint,
    behind_append hpoint, readInt, Nat.ofDigitChars, List.foldl_nil]
  congr 2
  omega

/-- With an exponent the power of ten is counted from it; without digits after the point there is no
point. -/
theorem readText_exponent (e : Int) :
    readText (whole ++ (if fraction.isEmpty then [] else '.' :: fraction) ++
        'e' :: (toString e).toList) =
      Nat.ofDigitChars 10 (whole ++ fraction) 0 *
        10 ^ ((wholeGrade : Int) + e - fraction.length).toNat := by
  have hmark : 'e' ∉ whole ++ (if fraction.isEmpty then [] else '.' :: fraction) := by
    split <;> simp [(not_mem_of_isDigit hwhole).1, (not_mem_of_isDigit hfraction).1]
  have hpoint := (not_mem_of_isDigit hwhole).2
  simp only [readText, upTo_append hmark, behind_append hmark, readInt_toString]
  cases fraction with
  | nil => simp [upTo_of_not_mem hpoint, behind_of_not_mem hpoint]
  | cons c cs => simp [upTo_append hpoint, behind_append hpoint]

end Reading

section Digits

variable (d : Decimal)

theorem isDigit_of_mem_decimal {c : Char} (h : c ∈ d.digits) : c.isDigit = true :=
  isDigit_of_mem_digits h

theorem digits_length_pos : 0 < d.digits.length := Nat.length_toDigits_pos

theorem ofDigitChars_digits : Nat.ofDigitChars 10 d.digits 0 = d.coefficient :=
  Nat.ofDigitChars_toDigits (by decide) (by decide)

theorem isDigit_of_mem_zeros {n : Nat} {c : Char} (h : c ∈ List.replicate n '0') :
    c.isDigit = true := by
  rw [List.eq_of_mem_replicate h]
  decide

/-- Zeros after the point put the digits further behind it. -/
theorem readText_leading_zeros (n : Nat) :
    readText ('0' :: '.' :: (List.replicate n '0' ++ d.digits)) =
      d.coefficient * 10 ^ (wholeGrade - (n + d.digits.length)) := by
  have hlead : ∀ c ∈ ['0'], c.isDigit = true := by simp
  have hall : ∀ c ∈ List.replicate n '0' ++ d.digits, c.isDigit = true := fun c hc =>
    (List.mem_append.mp hc).elim isDigit_of_mem_zeros d.isDigit_of_mem_decimal
  have hread := readText_point hlead hall
  rw [List.length_append, List.length_replicate, Nat.ofDigitChars_append, Nat.ofDigitChars_append,
    Nat.ofDigitChars_replicate_zero] at hread
  simpa [Nat.ofDigitChars, ← ofDigitChars_digits] using hread

/-- A point between two digits leaves the digits behind it after the point. -/
theorem readText_inner_point (k : Nat) :
    readText (d.digits.take k ++ '.' :: d.digits.drop k) =
      d.coefficient * 10 ^ (wholeGrade - (d.digits.length - k)) := by
  rw [readText_point (fun c hc => d.isDigit_of_mem_decimal (List.mem_of_mem_take hc))
      (fun c hc => d.isDigit_of_mem_decimal (List.mem_of_mem_drop hc)),
    List.take_append_drop, ofDigitChars_digits, List.length_drop]

/-- Zeros before the point count as digits. -/
theorem readText_trailing_zeros (k : Nat) :
    readText (d.digits ++ List.replicate k '0' ++ '.' :: ['0']) =
      d.coefficient * 10 ^ (k + wholeGrade) := by
  have hall : ∀ c ∈ d.digits ++ List.replicate k '0', c.isDigit = true := fun c hc =>
    (List.mem_append.mp hc).elim d.isDigit_of_mem_decimal isDigit_of_mem_zeros
  have hlast (n : Nat) : Nat.ofDigitChars 10 ['0'] n = 10 * n := by simp [Nat.ofDigitChars]
  obtain ⟨w, hw⟩ : ∃ w, wholeGrade = w + 1 := ⟨339, rfl⟩
  rw [readText_point hall (by simp), Nat.ofDigitChars_append, Nat.ofDigitChars_append,
    ofDigitChars_digits, Nat.ofDigitChars_replicate_zero, hlast, List.length_singleton, hw,
    Nat.add_sub_cancel]
  ring

/-- Digits about a point are read as the decimal they were written for. -/
theorem readText_plain : readText d.plain = d.scaled := by
  have hpos := d.digits_length_pos
  have he : d.exponent = (d.grade : Int) - wholeGrade + (d.digits.length - 1 : Nat) := rfl
  have hgrade : wholeGrade = 340 := rfl
  unfold plain
  dsimp only
  rw [scaled, Nat.pow_eq]
  split
  case isTrue hneg =>
    have hplaces : wholeGrade - ((-d.exponent).toNat - 1 + d.digits.length) = d.grade := by omega
    rw [readText_leading_zeros, hplaces]
  case isFalse hnonneg =>
    by_cases hlong : d.exponent.toNat + 1 < d.digits.length
    case pos =>
      have hrest : (d.digits.drop (d.exponent.toNat + 1)).isEmpty = false := by
        simpa [List.isEmpty_eq_false_iff] using hlong
      have hfront : (d.digits.take (d.exponent.toNat + 1)).length = d.exponent.toNat + 1 := by
        rw [List.length_take]
        omega
      have hplaces : wholeGrade - (d.digits.length - (d.exponent.toNat + 1)) = d.grade := by omega
      rw [hrest, hfront, Nat.sub_self, List.replicate_zero, List.append_nil, if_neg (by decide),
        readText_inner_point, hplaces]
    case neg =>
      have hrest : (d.digits.drop (d.exponent.toNat + 1)).isEmpty = true := by
        simpa using Nat.le_of_not_lt hlong
      have hfront : d.digits.take (d.exponent.toNat + 1) = d.digits :=
        List.take_of_length_le (Nat.le_of_not_lt hlong)
      have hplaces : d.exponent.toNat + 1 - d.digits.length + wholeGrade = d.grade := by omega
      rw [hrest, hfront, if_pos rfl, readText_trailing_zeros, hplaces]

/-- One digit with the power of ten is read as the decimal it was written for. -/
theorem readText_scientific : readText d.scientific = d.scaled := by
  have hdigits : ∀ c ∈ d.digits, c.isDigit = true := fun c hc => d.isDigit_of_mem_decimal hc
  have he : d.exponent = (d.grade : Int) - wholeGrade + (d.digits.length - 1 : Nat) := rfl
  have hplaces : ((wholeGrade : Int) + d.exponent - (d.digits.drop 1).length).toNat = d.grade := by
    rw [List.length_drop]
    omega
  unfold scientific
  dsimp only
  rw [readText_exponent (fun c hc => hdigits c (List.mem_of_mem_take hc))
      (fun c hc => hdigits c (List.mem_of_mem_drop hc)),
    hplaces, List.take_append_drop, ofDigitChars_digits, scaled, Nat.pow_eq]

/-- The text of a decimal is read as that decimal, whichever way it is written. -/
theorem readText_render (style : DecimalStyle) : readText (d.render style) = d.scaled := by
  unfold render
  split
  · exact d.readText_plain
  · exact d.readText_scientific

/-- Without an exponent a decimal is written with digits and a point. -/
theorem mem_plain {c : Char} (h : c ∈ d.plain) : c.isDigit = true ∨ c = '.' := by
  have hdigits : ∀ c ∈ d.digits, c.isDigit = true := fun c hc => d.isDigit_of_mem_decimal hc
  have hzero : '0'.isDigit = true := by decide
  unfold plain at h
  dsimp only at h
  split at h
  · simp only [List.mem_cons, List.mem_append, List.mem_replicate] at h
    rcases h with rfl | rfl | ⟨-, rfl⟩ | h
    · exact .inl hzero
    · exact .inr rfl
    · exact .inl hzero
    · exact .inl (hdigits c h)
  · simp only [List.mem_cons, List.mem_append, List.mem_replicate] at h
    rcases h with (h | ⟨-, rfl⟩) | rfl | h
    · exact .inl (hdigits c (List.mem_of_mem_take h))
    · exact .inl hzero
    · exact .inr rfl
    · split at h
      · rw [List.mem_singleton.mp h]
        exact .inl hzero
      · exact .inl (hdigits c (List.mem_of_mem_drop h))

/-- A decimal is written with digits, a point, the mark of an exponent and a sign. -/
theorem mem_render {style : DecimalStyle} {c : Char} (h : c ∈ d.render style) :
    c.isDigit = true ∨ c ∈ ['.', 'e', '-'] := by
  unfold render at h
  split at h
  · rcases d.mem_plain h with h | rfl <;> simp_all
  · have hdigits : ∀ c ∈ d.digits, c.isDigit = true := fun c hc => d.isDigit_of_mem_decimal hc
    unfold scientific at h
    simp only [List.mem_cons, List.mem_append] at h
    rcases h with (h | h) | rfl | h
    · exact .inl (hdigits c (List.mem_of_mem_take h))
    · split at h
      · cases h
      · rcases List.mem_cons.mp h with rfl | h
        · simp
        · exact .inl (hdigits c (List.mem_of_mem_drop h))
    · simp
    · rcases mem_toString_int h with h | rfl <;> simp_all

/-- A decimal is written with a point or with the mark of an exponent. -/
theorem render_marked (style : DecimalStyle) : '.' ∈ d.render style ∨ 'e' ∈ d.render style := by
  unfold render
  split
  · left
    unfold plain
    dsimp only
    split <;> simp
  · right
    simp [scientific]

/-- The text of a decimal begins with a digit. -/
theorem render_begins (style : DecimalStyle) :
    ∃ c rest, d.render style = c :: rest ∧ c.isDigit = true := by
  obtain ⟨c, cs, hdigits⟩ := List.exists_cons_of_ne_nil
    (List.ne_nil_of_length_pos d.digits_length_pos)
  have hc : c.isDigit = true := d.isDigit_of_mem_decimal (hdigits ▸ List.mem_cons_self ..)
  unfold render
  split
  · unfold plain
    dsimp only
    split
    · exact ⟨'0', _, rfl, by decide⟩
    · exact ⟨c, _, by rw [hdigits]; rfl, hc⟩
  · exact ⟨c, _, by unfold scientific; rw [hdigits]; rfl, hc⟩

end Digits

end Decimal

namespace Binary64

/-- A number that is not zero is a positive number of units, and its interval does not reach down to
zero. -/
theorem units_pos {x : Binary64} (hx : x.isZero = false) : 0 < x.units ∧ 0 < x.lowerEnd := by
  have hbits : x.magnitudeBits ≠ 0 := by simpa [isZero] using hx
  obtain ⟨z, hz⟩ := exists_magnitudeBits (m := x.magnitudeBits - 1) (by
    have := x.magnitudeBits_lt
    omega)
  have hnext : x.magnitudeBits = z.magnitudeBits + 1 := by omega
  have hpos := z.spacing_pos
  rw [units_next hnext, lowerEnd_next hnext, upperEnd]
  omega

/-- The decimal found for a number other than zero is not zero. -/
theorem scaled_shortest_pos {x : Binary64} (hx : x.isZero = false) : 0 < x.shortest.scaled := by
  obtain ⟨hunits, hlow⟩ := units_pos hx
  obtain ⟨hreads, -⟩ := (x.readsBack_iff _).mp (readsBack_shortest hunits)
  refine Nat.pos_of_ne_zero fun hzero => ?_
  rw [hzero, Nat.zero_mul, Nat.mul_zero] at hreads
  exact absurd (Nat.mul_pos hlow unitSize_pos) (by omega)

/-- The word without its sign and the sign determine a number. -/
theorem eq_of_fields {x y : Binary64} (hsign : x.negative = y.negative)
    (hmagnitude : x.magnitudeBits = y.magnitudeBits) : x = y := by
  have hwide (z : Binary64) : z.bits.toNat < 2 * signBit := z.bits.toNat_lt
  have hx := hwide x
  have hy := hwide y
  have htoNat : x.bits.toNat = y.bits.toNat := by
    simp only [negative, magnitudeBits] at hsign hmagnitude
    have hsign' : signBit ≤ x.bits.toNat ↔ signBit ≤ y.bits.toNat := by simpa using hsign
    generalize x.bits.toNat = a at *
    generalize y.bits.toNat = b at *
    unfold signBit at *
    omega
  cases x
  cases y
  simpa [UInt64.toNat_inj] using htoNat

section Magnitude

variable {x y : Binary64}

/-- Only an infinite magnitude is written with letters other than the mark of an exponent. -/
theorem mem_magnitudeText {c : Char} (h : c ∈ x.magnitudeText) :
    c.isDigit = true ∨ c ∈ ['.', 'e', '-'] ∨ (x.isInfinite = true ∧ c ∈ ['i', 'n', 'f']) := by
  unfold magnitudeText at h
  split at h
  · rename_i hinf
    exact .inr (.inr ⟨hinf, h⟩)
  · split at h
    · have hzero : c ∈ ['0', '.', '0'] := h
      simp only [List.mem_cons, List.not_mem_nil, or_false] at hzero
      rcases hzero with rfl | rfl | rfl
      · exact .inl (by decide)
      · exact .inr (.inl (by decide))
      · exact .inl (by decide)
    · rcases Decimal.mem_render _ h with h | h
      · exact .inl h
      · exact .inr (.inl h)

/-- An infinite magnitude is told by its first letter. -/
theorem mem_magnitudeText_iff : 'i' ∈ x.magnitudeText ↔ x.isInfinite = true := by
  constructor
  · intro h
    rcases mem_magnitudeText h with h | h | ⟨h, -⟩
    · exact absurd h (by decide)
    · exact absurd h (by decide)
    · exact h
  · intro h
    simp [magnitudeText, h]

/-- A magnitude is written with a point, an exponent or a letter, and without a sign. -/
theorem magnitudeText_marked (x : Binary64) :
    (∃ c ∈ x.magnitudeText, c ∈ ['.', 'e', 'i']) ∧ ∀ rest, x.magnitudeText ≠ '-' :: rest := by
  unfold magnitudeText
  split
  · exact ⟨⟨'i', by simp, by simp⟩, by simp⟩
  · split
    · exact ⟨⟨'.', by simp, by simp⟩, by simp⟩
    · constructor
      · rcases x.shortest.render_marked style with h | h
        · exact ⟨'.', h, by simp⟩
        · exact ⟨'e', h, by simp⟩
      · obtain ⟨c, cs, hrender, hc⟩ := x.shortest.render_begins style
        rintro rest hrest
        rw [hrender] at hrest
        obtain ⟨rfl, -⟩ := List.cons.inj hrest
        exact absurd hc (by decide)

/-- A finite magnitude is written as a decimal that is read back as it. -/
theorem readText_magnitudeText (hx : x.isInfinite = false) :
    Decimal.readText x.magnitudeText = if x.isZero then 0 else x.shortest.scaled := by
  unfold magnitudeText
  rw [hx, if_neg (by decide)]
  split
  · have hdigit : ∀ c ∈ ['0'], c.isDigit = true := by simp
    have hread := Decimal.readText_point hdigit hdigit
    have hzero : Nat.ofDigitChars 10 (['0'] ++ ['0']) 0 = 0 := by decide
    rw [hzero, Nat.zero_mul] at hread
    exact hread
  · exact x.shortest.readText_render style

/-- Magnitudes with the same text are the same. -/
theorem magnitudeBits_eq_of_magnitudeText (h : x.magnitudeText = y.magnitudeText) :
    x.magnitudeBits = y.magnitudeBits := by
  have hinf : x.isInfinite = y.isInfinite := by
    rw [Bool.eq_iff_iff, ← mem_magnitudeText_iff, ← mem_magnitudeText_iff, h]
  cases hxinf : x.isInfinite with
  | true =>
    have hyinf := hinf.symm.trans hxinf
    simp only [isInfinite, exponentField, fractionField, hiddenBit, Bool.and_eq_true,
      beq_iff_eq] at hxinf hyinf
    omega
  | false =>
    have hyinf := hinf.symm.trans hxinf
    have hread := congrArg Decimal.readText h
    rw [readText_magnitudeText hxinf, readText_magnitudeText hyinf] at hread
    cases hxz : x.isZero <;> cases hyz : y.isZero
    case true.true => simp_all [isZero]
    case true.false =>
      have := scaled_shortest_pos hyz
      simp_all
    case false.true =>
      have := scaled_shortest_pos hxz
      simp_all
    case false.false =>
      rw [hxz, hyz, if_neg (by decide), if_neg (by decide)] at hread
      refine magnitudeBits_eq_of_readsBack (readsBack_shortest (units_pos hxz).1) ?_
      rw [y.readsBack_congr hread]
      exact readsBack_shortest (units_pos hyz).1

end Magnitude

/-- A number that is written as a word that denotes no number is one. -/
theorem mem_text_iff (x : Binary64) : 'N' ∈ x.text ↔ x.isNaN = true := by
  unfold text
  split
  · simp_all
  · have hmagnitude : 'N' ∉ x.magnitudeText := fun h => by
      rcases mem_magnitudeText h with h | h | ⟨-, h⟩ <;> exact absurd h (by decide)
    split <;> simp_all

/-- A number is written with digits, signs, a point, the mark of an exponent and the letters of the
two words. -/
theorem mem_text {x : Binary64} {c : Char} (h : c ∈ x.text) :
    c.isDigit = true ∨ c ∈ ['.', 'e', '-', 'i', 'n', 'f', 'N', 'a'] := by
  have hmagnitude (hc : c ∈ x.magnitudeText) :
      c.isDigit = true ∨ c ∈ ['.', 'e', '-', 'i', 'n', 'f', 'N', 'a'] := by
    rcases mem_magnitudeText hc with hc | hc | ⟨-, hc⟩
    · exact .inl hc
    all_goals
      refine .inr ?_
      simp only [List.mem_cons, List.not_mem_nil, or_false] at hc ⊢
      tauto
  unfold text at h
  split at h
  · have hnan : c ∈ ['N', 'a', 'N'] := h
    simp only [List.mem_cons, List.not_mem_nil, or_false] at hnan ⊢
    tauto
  · split at h
    · rcases List.mem_cons.mp h with rfl | h
      · simp
      · exact hmagnitude h
    · exact hmagnitude h

/-- A number is not written with digits and a sign alone. -/
theorem text_marked (x : Binary64) : ∃ c ∈ x.text, c ∈ ['.', 'e', 'i', 'N'] := by
  obtain ⟨c, hmem, hmark⟩ := (magnitudeText_marked x).1
  have hmark' : c ∈ ['.', 'e', 'i', 'N'] := by
    simp only [List.mem_cons, List.not_mem_nil, or_false] at hmark ⊢
    tauto
  unfold text
  split
  · exact ⟨'N', by simp, by simp⟩
  · split
    · exact ⟨c, List.mem_cons_of_mem _ hmem, hmark'⟩
    · exact ⟨c, hmem, hmark'⟩

/-- Two numbers with the same text are the same, unless they denote no number. -/
theorem eq_of_text {x y : Binary64} (h : x.text = y.text) (hx : x.isNaN = false) : x = y := by
  have hy : y.isNaN = false := by
    rw [Bool.eq_false_iff, ne_eq, ← mem_text_iff, ← h, mem_text_iff, hx]
    decide
  simp only [text, hx, hy, Bool.false_eq_true, if_false] at h
  cases hxsign : x.negative <;> cases hysign : y.negative <;>
    simp only [hxsign, hysign, if_true, if_false, Bool.false_eq_true] at h
  case false.true => exact absurd h ((magnitudeText_marked x).2 _)
  case true.false => exact absurd h.symm ((magnitudeText_marked y).2 _)
  case false.false =>
    exact eq_of_fields (hxsign.trans hysign.symm) (magnitudeBits_eq_of_magnitudeText h)
  case true.true =>
    exact eq_of_fields (hxsign.trans hysign.symm)
      (magnitudeBits_eq_of_magnitudeText (List.cons.inj h).2)

/-- The words that denote no number have one text, and every other number a text of its own. -/
theorem text_eq_iff (x y : Binary64) :
    x.text = y.text ↔ x = y ∨ (x.isNaN = true ∧ y.isNaN = true) := by
  constructor
  · intro h
    cases hx : x.isNaN with
    | false => exact .inl (eq_of_text h hx)
    | true => exact .inr ⟨rfl, by rw [← mem_text_iff, ← h, mem_text_iff, hx]⟩
  · rintro (rfl | ⟨hx, hy⟩)
    · rfl
    · rw [text, text, if_pos hx, if_pos hy]

end Binary64

end Delegation
