import Delegation.Proofs.NumberText
import Delegation.Value.Text
/-!
# Displayed values are unambiguous

From a displayed text the value can be told, but for one thing: the words that
denote no number have one text. The argument follows the text from its front.
The first character tells a quoted text, a sequence and a mapping from each other
and from everything that is displayed as one word, and the characters of a word
tell which kind of value it is. A word ends where a comma or a closing bracket
follows, a quoted text at the first quote without a backslash before it, and a
sequence or a mapping after the parts it holds, one after the other. So a
displayed value followed by a text that begins with a comma or a closing bracket
can be split off it in one way only, whatever its quoted texts contain.
-/

namespace Delegation

namespace Quoted

/-- The value of a hexadecimal digit. -/
def hexValue (c : Char) : Nat := if c.isDigit then c.toNat - 48 else c.toNat - 87

/-- The number that hexadecimal digits are read as. -/
def ofHex (digits : List Char) : Nat := digits.foldl (fun n c => 16 * n + hexValue c) 0

/-- The hexadecimal digits of a number are read as that number, and none of them is a brace. -/
theorem ofHex_toDigits (n : Nat) :
    ofHex (Nat.toDigits 16 n) = n ∧ '\x7d' ∉ Nat.toDigits 16 n := by
  have hdigit : ∀ k < 16, hexValue k.digitChar = k ∧ '\x7d' ≠ k.digitChar := by decide
  induction n using Nat.strongRecOn with
  | ind n ih =>
    by_cases hsmall : n < 16
    · rw [Nat.toDigits_of_lt_base hsmall]
      simpa [ofHex] using hdigit n hsmall
    · obtain ⟨hvalue, hbrace⟩ := ih (n / 16) (by omega)
      obtain ⟨hlast, hlast'⟩ := hdigit (n % 16) (Nat.mod_lt _ (by decide))
      rw [Nat.toDigits_of_base_le (by decide) (Nat.le_of_not_lt hsmall)]
      constructor
      · rw [ofHex, List.foldl_append, ← ofHex, hvalue, List.foldl_cons, List.foldl_nil, hlast]
        omega
      · simp [hbrace, hlast']

/-- The character that a text between quotes begins with, and the text after its spelling. -/
def readOne : List Char → Option (Char × List Char)
  | '\\' :: '0' :: rest => some ('\x00', rest)
  | '\\' :: 't' :: rest => some ('\t', rest)
  | '\\' :: 'n' :: rest => some ('\n', rest)
  | '\\' :: 'r' :: rest => some ('\r', rest)
  | '\\' :: 'u' :: _ :: rest => some (Char.ofNat (ofHex (upTo '\x7d' rest)), behind '\x7d' rest)
  | '\\' :: c :: rest => some (c, rest)
  | c :: rest => some (c, rest)
  | [] => none

/-- What is no backslash is read as itself. -/
theorem readOne_cons {c : Char} (h : c ≠ '\\') (rest : List Char) :
    readOne (c :: rest) = some (c, rest) := by
  unfold readOne
  split <;> simp_all

/-- The spelling by number is read as the character of that number. -/
theorem readOne_byNumber (c : Char) (rest : List Char) :
    readOne (byNumber c ++ rest) = some (c, rest) := by
  obtain ⟨hvalue, hbrace⟩ := ofHex_toDigits c.toNat
  simp only [byNumber, List.cons_append, List.append_assoc, List.nil_append, readOne,
    upTo_append hbrace, behind_append hbrace, hvalue, Char.ofNat_toNat]

/-- The spelling of a character is read as that character, whatever follows it. -/
theorem readOne_escape (c : Char) (rest : List Char) :
    readOne (escape c ++ rest) = some (c, rest) := by
  unfold escape
  split
  case isTrue h => rw [h]; rfl
  split
  case isTrue h => rw [h]; rfl
  split
  case isTrue h => rw [h]; rfl
  split
  case isTrue h => rw [h]; rfl
  split
  case isTrue h => rcases h with rfl | rfl <;> rfl
  case isFalse h =>
    have hslash : c ≠ '\\' := fun hc => h (.inr hc)
    split
    · exact readOne_cons hslash rest
    · split
      · exact readOne_byNumber c rest
      · exact readOne_cons hslash rest

/-- No spelling begins with a quote. -/
theorem escape_append_ne_quote (c : Char) (rest rest' : List Char) :
    escape c ++ rest ≠ '"' :: rest' := by
  intro h
  have hc : some (c, rest) = some ('"', rest') := by
    rw [← readOne_escape, h]
    exact readOne_cons (by decide) rest'
  obtain ⟨rfl, -⟩ := Prod.mk.inj (Option.some.inj hc)
  exact absurd (List.cons.inj h).1 (by decide)

/-- The characters between quotes can be told from the text that begins with their spellings, up to
the quote behind them. -/
theorem escapeAll_append_inj {cs ds rest rest' : List Char}
    (h : escapeAll cs ++ '"' :: rest = escapeAll ds ++ '"' :: rest') : cs = ds ∧ rest = rest' := by
  induction cs generalizing ds with
  | nil =>
    cases ds with
    | nil => exact ⟨rfl, (List.cons.inj h).2⟩
    | cons d ds =>
      rw [escapeAll, escapeAll, List.flatMap_cons, List.append_assoc] at h
      exact absurd h.symm (escape_append_ne_quote d _ _)
  | cons c cs ih =>
    cases ds with
    | nil =>
      rw [escapeAll, escapeAll, List.flatMap_cons, List.append_assoc] at h
      exact absurd h (escape_append_ne_quote c _ _)
    | cons d ds =>
      rw [escapeAll, escapeAll, List.flatMap_cons, List.flatMap_cons, List.append_assoc,
        List.append_assoc] at h
      have hread := congrArg readOne h
      rw [readOne_escape, readOne_escape] at hread
      obtain ⟨rfl, hrest⟩ := Prod.mk.inj (Option.some.inj hread)
      obtain ⟨rfl, hend⟩ := ih hrest
      exact ⟨rfl, hend⟩

/-- A quoted text is told from the text that begins with it. -/
theorem quote_append_inj {s t : String} {rest rest' : List Char}
    (h : (quote s).toList ++ rest = (quote t).toList ++ rest') : s = t ∧ rest = rest' := by
  simp only [quote, String.toList_ofList, List.cons_append, List.append_assoc, List.nil_append,
    List.cons.injEq, true_and] at h
  obtain ⟨hchars, hrest⟩ := escapeAll_append_inj h
  exact ⟨String.toList_inj.mp hchars, hrest⟩

end Quoted

/-- Whether a character ends the value before it: a comma or a closing bracket. -/
def isStop (c : Char) : Bool := c == ',' || c == ']' || c == '\x7d'

/-- Whether a text may follow a displayed value: it is empty or begins with a comma or a closing
bracket. -/
def Stops (rest : List Char) : Prop := ∀ c cs, rest = c :: cs → isStop c = true

theorem stops_nil : Stops [] := fun _ _ h => by cases h

theorem stops_cons {c : Char} (hc : isStop c = true) (rest : List Char) : Stops (c :: rest) :=
  fun _ _ h => (List.cons.inj h).1 ▸ hc

/-- A text without commas and closing brackets is told from a text that begins with it. -/
theorem word_append_inj {t t' rest rest' : List Char} (ht : ∀ c ∈ t, isStop c = false)
    (ht' : ∀ c ∈ t', isStop c = false) (hrest : Stops rest) (hrest' : Stops rest')
    (h : t ++ rest = t' ++ rest') : t = t' ∧ rest = rest' := by
  induction t generalizing t' with
  | nil =>
    cases t' with
    | nil => exact ⟨rfl, h⟩
    | cons c cs => exact absurd (hrest c _ h) (by simp [ht' c (List.mem_cons_self ..)])
  | cons c cs ih =>
    cases t' with
    | nil => exact absurd (hrest' c _ h.symm) (by simp [ht c (List.mem_cons_self ..)])
    | cons d ds =>
      obtain ⟨rfl, htail⟩ := List.cons.inj h
      obtain ⟨rfl, hend⟩ := ih (fun a ha => ht a (List.mem_cons_of_mem _ ha))
        (fun a ha => ht' a (List.mem_cons_of_mem _ ha)) htail
      exact ⟨rfl, hend⟩

/-- The first part, and each other one after a comma and a blank. -/
theorem commaSeparated_cons (p : List Char) (ps : List (List Char)) :
    commaSeparated (p :: ps) = p ++ ps.flatMap fun q => ',' :: ' ' :: q := by
  induction ps generalizing p with
  | nil => simp [commaSeparated]
  | cons q ps ih =>
    rw [commaSeparated, List.intercalate_cons_cons, ← commaSeparated, ih]
    simp

section Separated

variable {α κ : Type} (print : α → List Char) (key : α → κ)

/-- Whether the key of a printed thing can be told from every text that begins with it. -/
def Told (a : α) : Prop :=
  ∀ b rest rest', Stops rest → Stops rest' → print a ++ rest = print b ++ rest' →
    key a = key b ∧ rest = rest'

variable {print key} {close : Char} (hclose : isStop close = true)

include hclose in
/-- What is left of a sequence begins with a comma or with the closing bracket. -/
theorem stops_rest (as : List α) (rest : List Char) :
    Stops ((as.map print).flatMap (fun q => ',' :: ' ' :: q) ++ close :: rest) := by
  cases as with
  | nil => exact stops_cons hclose rest
  | cons a as => exact stops_cons (by decide) _

variable (hcomma : close ≠ ',')

include hclose hcomma

/-- Parts that can be told can be told one after the other, each after a comma, up to the closing
bracket. -/
theorem told_rest {as : List α} (h : ∀ a ∈ as, Told print key a) {bs : List α}
    {rest rest' : List Char}
    (heq : (as.map print).flatMap (fun q => ',' :: ' ' :: q) ++ close :: rest =
      (bs.map print).flatMap (fun q => ',' :: ' ' :: q) ++ close :: rest') :
    as.map key = bs.map key ∧ rest = rest' := by
  induction as generalizing bs with
  | nil =>
    cases bs with
    | nil => exact ⟨rfl, (List.cons.inj heq).2⟩
    | cons b bs => exact absurd (List.cons.inj heq).1 hcomma
  | cons a as ih =>
    cases bs with
    | nil => exact absurd (List.cons.inj heq).1.symm hcomma
    | cons b bs =>
      simp only [List.map_cons, List.flatMap_cons, List.cons_append, List.append_assoc,
        List.cons.injEq, true_and] at heq
      obtain ⟨hkey, htail⟩ := h a (List.mem_cons_self ..) b _ _
        (stops_rest hclose as _) (stops_rest hclose bs _) heq
      obtain ⟨hkeys, hend⟩ := ih (fun a ha => h a (List.mem_cons_of_mem _ ha)) htail
      exact ⟨by rw [List.map_cons, List.map_cons, hkey, hkeys], hend⟩

/-- The same from the first part on, if no part begins with the closing bracket. -/
theorem told_separated (hstart : ∀ a rest rest', print a ++ rest ≠ close :: rest') {as : List α}
    (h : ∀ a ∈ as, Told print key a) {bs : List α} {rest rest' : List Char}
    (heq : commaSeparated (as.map print) ++ close :: rest =
      commaSeparated (bs.map print) ++ close :: rest') :
    as.map key = bs.map key ∧ rest = rest' := by
  have hempty : commaSeparated [] = [] := rfl
  cases as with
  | nil =>
    cases bs with
    | nil => exact ⟨rfl, (List.cons.inj heq).2⟩
    | cons b bs =>
      rw [List.map_cons, commaSeparated_cons, List.append_assoc] at heq
      exact absurd heq.symm (hstart b _ _)
  | cons a as =>
    cases bs with
    | nil =>
      rw [List.map_cons, commaSeparated_cons, List.append_assoc] at heq
      exact absurd heq (hstart a _ _)
    | cons b bs =>
      rw [List.map_cons, List.map_cons, commaSeparated_cons, commaSeparated_cons,
        List.append_assoc, List.append_assoc] at heq
      obtain ⟨hkey, htail⟩ := h a (List.mem_cons_self ..) b _ _
        (stops_rest hclose as _) (stops_rest hclose bs _) heq
      obtain ⟨hkeys, hend⟩ :=
        told_rest hclose hcomma (fun a ha => h a (List.mem_cons_of_mem _ ha)) htail
      exact ⟨by rw [List.map_cons, List.map_cons, hkey, hkeys], hend⟩

end Separated

namespace Value

mutual

/-- A value with every word that denotes no number replaced by the same one. -/
def canonical : Value → Value
  | none => none
  | bool b => bool b
  | int i => int i
  | float x => float (if x.isNaN then .nan else x)
  | str s => str s
  | list items => list (canonicalItems items)
  | map entries => map (canonicalEntries entries)

/-- The values of a sequence, each with those words replaced. -/
def canonicalItems : List Value → List Value
  | [] => []
  | v :: vs => canonical v :: canonicalItems vs

/-- The entries of a mapping with those words replaced in their values. -/
def canonicalEntries : List (String × Value) → List (String × Value)
  | [] => []
  | (k, v) :: es => (k, canonical v) :: canonicalEntries es

end

theorem canonicalItems_eq_map (items : List Value) :
    canonicalItems items = items.map canonical := by
  induction items with
  | nil => rfl
  | cons v vs ih => rw [canonicalItems, ih, List.map_cons]

theorem canonicalEntries_eq_map (entries : List (String × Value)) :
    canonicalEntries entries = entries.map fun e => (e.1, e.2.canonical) := by
  induction entries with
  | nil => rfl
  | cons e es ih => rw [canonicalEntries, ih, List.map_cons]

/-- Floating point numbers with the same text differ in the word of a number only. -/
theorem canonical_float_eq {x y : Binary64} (h : x.text = y.text) :
    canonical (float x) = canonical (float y) := by
  rcases (Binary64.text_eq_iff x y).mp h with rfl | ⟨hx, hy⟩
  · rfl
  · rw [canonical, canonical, if_pos hx, if_pos hy]

mutual

/-- The words replaced have the same text. -/
theorem displayChars_canonical : (v : Value) → v.canonical.displayChars = v.displayChars
  | none | bool _ | int _ | str _ => rfl
  | float x => by
    rw [canonical, displayChars, displayChars, Binary64.text_eq_iff]
    split
    · rename_i hx
      exact .inr ⟨by decide, hx⟩
    · exact .inl rfl
  | list items => by rw [canonical, displayChars, displayChars, displayItems_canonical items]
  | map entries => by rw [canonical, displayChars, displayChars, displayEntries_canonical entries]

/-- In sequences as well. -/
theorem displayItems_canonical :
    (items : List Value) → displayItems (canonicalItems items) = displayItems items
  | [] => rfl
  | v :: vs => by
    rw [canonicalItems, displayItems, displayItems, displayChars_canonical v,
      displayItems_canonical vs]

/-- In mappings as well. -/
theorem displayEntries_canonical : (entries : List (String × Value)) →
    displayEntries (canonicalEntries entries) = displayEntries entries
  | [] => rfl
  | (k, v) :: es => by
    rw [canonicalEntries, displayEntries, displayEntries, displayChars_canonical v,
      displayEntries_canonical es]

end

/-- Whether a value is displayed as one word, without quotes and brackets. -/
def isWord : Value → Bool
  | none | bool _ | int _ | float _ => true
  | _ => false

/-- Whether a character opens or ends a value that is no word, or ends the value before it. -/
def isBound (c : Char) : Bool := isStop c || c == '"' || c == '[' || c == '\x7b'

theorem isBound_of_isDigit {c : Char} (h : c.isDigit = true) : isBound c = false := by
  refine Bool.eq_false_iff.mpr fun hbound => ?_
  simp only [isBound, isStop, Bool.or_eq_true, beq_iff_eq] at hbound
  rcases hbound with ((((rfl | rfl) | rfl) | rfl) | rfl) | rfl <;> exact absurd h (by decide)

/-- A word is no empty text, and none of its characters opens or ends a value. -/
theorem word_chars {v : Value} (hv : v.isWord = true) :
    v.displayChars ≠ [] ∧ ∀ c ∈ v.displayChars, isBound c = false := by
  cases v with
  | none => exact ⟨by decide, by simp [displayChars, isBound, isStop]⟩
  | bool b =>
    cases b <;> exact ⟨by decide, by simp [displayChars, boolText, isBound, isStop]⟩
  | int i =>
    constructor
    · rw [displayChars, intText, toList_toString_int]
      exact List.append_ne_nil_of_right_ne_nil _ Nat.toDigits_ne_nil
    · intro c hc
      rcases mem_toString_int hc with h | rfl
      · exact isBound_of_isDigit h
      · rfl
  | float x =>
    constructor
    · obtain ⟨c, hc, -⟩ := x.text_marked
      exact List.ne_nil_of_mem hc
    · intro c hc
      rcases Binary64.mem_text hc with h | h
      · exact isBound_of_isDigit h
      · have hletters : ∀ c ∈ ['.', 'e', '-', 'i', 'n', 'f', 'N', 'a'], isBound c = false := by
          simp [isBound, isStop]
        exact hletters c h
  | str _ | list _ | map _ => cases hv

/-- The type of the value that a word was displayed for. -/
def wordType (word : List Char) : String :=
  if 'o' ∈ word then "none"
  else if 't' ∈ word ∨ 's' ∈ word then "bool"
  else if word.all fun c => c.isDigit || c == '-' then "int"
  else "float"

/-- A word without the letters of the other words is a number, an integer if it is made of digits
and a sign alone. -/
theorem wordType_of_number {word : List Char} (h : ∀ c ∈ word, c ∉ ['o', 't', 's']) :
    wordType word = if word.all (fun c => c.isDigit || c == '-') then "int" else "float" := by
  have ho : 'o' ∉ word := fun hc => h _ hc (by decide)
  have hts : ¬('t' ∈ word ∨ 's' ∈ word) := by
    rintro (hc | hc)
    · exact h _ hc (by decide)
    · exact h _ hc (by decide)
  rw [wordType, if_neg ho, if_neg hts]

theorem not_letter_of_isDigit {c : Char} (h : c.isDigit = true) : c ∉ ['o', 't', 's'] := by
  intro hc
  simp only [List.mem_cons, List.not_mem_nil, or_false] at hc
  rcases hc with rfl | rfl | rfl <;> exact absurd h (by decide)

/-- Words of different types are different. -/
theorem wordType_displayChars {v : Value} (hv : v.isWord = true) :
    wordType v.displayChars = v.typeName := by
  cases v with
  | none => decide
  | bool b => cases b <;> decide
  | int i =>
    have hall : (int i).displayChars.all (fun c => c.isDigit || c == '-') = true := by
      rw [List.all_eq_true]
      intro c hc
      rcases mem_toString_int hc with h | rfl
      · simp [h]
      · rfl
    rw [wordType_of_number, if_pos hall, typeName]
    intro c hc
    rcases mem_toString_int hc with h | rfl
    · exact not_letter_of_isDigit h
    · decide
  | float x =>
    have hall : (float x).displayChars.all (fun c => c.isDigit || c == '-') = false := by
      obtain ⟨c, hc, hmark⟩ := x.text_marked
      rw [List.all_eq_false]
      have hmarks : ∀ c ∈ ['.', 'e', 'i', 'N'], ¬(c.isDigit || c == '-') = true := by simp
      exact ⟨c, hc, hmarks c hmark⟩
    rw [wordType_of_number, hall, if_neg (by decide), typeName]
    intro c hc
    rcases Binary64.mem_text hc with h | h
    · exact not_letter_of_isDigit h
    · have hletters : ∀ c ∈ ['.', 'e', '-', 'i', 'n', 'f', 'N', 'a'], c ∉ ['o', 't', 's'] := by
        simp
      exact hletters c h
  | str _ | list _ | map _ => cases hv

/-- The type of the value that a text was displayed for, told from its first character or from the
word it begins with. -/
def readTypeName (text : List Char) : String :=
  match text.head? with
  | some '"' => "str"
  | some '[' => "list"
  | some '\x7b' => "map"
  | _ => wordType (text.takeWhile fun c => !isStop c)

/-- From a text that begins with a displayed value its type can be told. -/
theorem readTypeName_displayChars (v : Value) {rest : List Char} (hrest : Stops rest) :
    readTypeName (v.displayChars ++ rest) = v.typeName := by
  cases hv : v.isWord with
  | true =>
    obtain ⟨hne, hchars⟩ := word_chars hv
    have hword : (v.displayChars ++ rest).takeWhile (fun c => !isStop c) = v.displayChars := by
      rw [List.takeWhile_append_of_pos (fun c hc => by
        have := hchars c hc
        simp_all [isBound])]
      cases rest with
      | nil => simp
      | cons c cs => simp [hrest c cs rfl]
    obtain ⟨c, cs, hcons⟩ := List.exists_cons_of_ne_nil hne
    have hc : isBound c = false := hchars c (hcons ▸ List.mem_cons_self ..)
    have hhead : (v.displayChars ++ rest).head? = some c := by rw [hcons]; rfl
    rw [readTypeName, hhead, hword]
    split
    case h_4 => exact wordType_displayChars hv
    all_goals
      rename_i heq
      rw [Option.some.inj heq] at hc
      exact absurd hc (by decide)
  | false =>
    cases v with
    | str s =>
      simp [readTypeName, displayChars, Quoted.quote, typeName]
    | list items => rfl
    | map entries => rfl
    | none | bool _ | int _ | float _ => cases hv

/-- Texts that begin with displayed values are the same for values of one type only. -/
theorem typeName_eq_of_append {v w : Value} {rest rest' : List Char} (hrest : Stops rest)
    (hrest' : Stops rest') (h : v.displayChars ++ rest = w.displayChars ++ rest') :
    v.typeName = w.typeName := by
  rw [← v.readTypeName_displayChars hrest, h, w.readTypeName_displayChars hrest']

/-- A displayed value begins with a character that ends none. -/
theorem displayChars_begins (v : Value) :
    ∃ c cs, v.displayChars = c :: cs ∧ isStop c = false := by
  cases hv : v.isWord with
  | true =>
    obtain ⟨hne, hchars⟩ := word_chars hv
    obtain ⟨c, cs, hcons⟩ := List.exists_cons_of_ne_nil hne
    have hc : isBound c = false := hchars c (hcons ▸ List.mem_cons_self ..)
    exact ⟨c, cs, hcons, by simp_all [isBound]⟩
  | false =>
    cases v with
    | str s => exact ⟨'"', _, by rw [displayChars, Quoted.quote, String.toList_ofList], rfl⟩
    | list items => exact ⟨'[', _, rfl, rfl⟩
    | map entries => exact ⟨'\x7b', _, rfl, rfl⟩
    | none | bool _ | int _ | float _ => cases hv

theorem displayChars_append_ne {c : Char} (hc : isStop c = true) (v : Value)
    (rest rest' : List Char) : v.displayChars ++ rest ≠ c :: rest' := by
  obtain ⟨d, ds, hcons, hd⟩ := v.displayChars_begins
  rw [hcons]
  rintro h
  rw [← (List.cons.inj h).1, hd] at hc
  cases hc

/-- Words of one type with the same text are displayed for the same value. -/
theorem canonical_eq_of_word {v w : Value} (hv : v.isWord = true)
    (htype : v.typeName = w.typeName) (h : v.displayChars = w.displayChars) :
    v.canonical = w.canonical := by
  cases v with
  | none => cases w <;> simp_all [typeName]
  | bool b =>
    cases w with
    | bool b' =>
      have hb : b = b' := by
        revert h
        cases b <;> cases b' <;> decide
      rw [hb]
    | _ => simp [typeName] at htype
  | int i =>
    cases w with
    | int j =>
      have hread := congrArg readInt h
      rw [displayChars, displayChars, intText, intText, readInt_toString, readInt_toString] at hread
      rw [Int64.toInt_inj.mp hread]
    | _ => simp [typeName] at htype
  | float x =>
    cases w with
    | float y => exact canonical_float_eq h
    | _ => simp [typeName] at htype
  | str _ | list _ | map _ => cases hv

/-- A word is told from every text that begins with it. -/
theorem told_word {v : Value} (hv : v.isWord = true) : Told displayChars canonical v := by
  intro w rest rest' hrest hrest' h
  have htype : v.typeName = w.typeName := typeName_eq_of_append hrest hrest' h
  have hw : w.isWord = true := by
    cases v <;> cases w <;> simp_all [isWord, typeName]
  have hstop {u : Value} (hu : u.isWord = true) : ∀ c ∈ u.displayChars, isStop c = false :=
    fun c hc => by
      have := (word_chars hu).2 c hc
      simp_all [isBound]
  obtain ⟨hword, hend⟩ := word_append_inj (hstop hv) (hstop hw) hrest hrest' h
  exact ⟨canonical_eq_of_word hv htype hword, hend⟩

/-- A quoted text is told from every text that begins with it. -/
theorem told_str (s : String) : Told displayChars canonical (str s) := by
  intro w rest rest' hrest hrest' h
  have htype : (str s).typeName = w.typeName := typeName_eq_of_append hrest hrest' h
  cases w with
  | str t =>
    obtain ⟨rfl, hend⟩ := Quoted.quote_append_inj h
    exact ⟨rfl, hend⟩
  | _ => simp [typeName] at htype

/-- A sequence is told from every text that begins with it if its items are. -/
theorem told_list {items : List Value} (hitems : ∀ v ∈ items, Told displayChars canonical v) :
    Told displayChars canonical (list items) := by
  intro w rest rest' hrest hrest' h
  have htype : (list items).typeName = w.typeName := typeName_eq_of_append hrest hrest' h
  cases w with
  | list items' =>
    simp only [displayChars, bracketed, displayItems_eq_map, List.cons_append, List.append_assoc,
      List.nil_append, List.cons.injEq, true_and] at h
    have hclose : isStop ']' = true := rfl
    obtain ⟨hkeys, hend⟩ := told_separated hclose (by decide)
      (displayChars_append_ne rfl) hitems h
    rw [canonical, canonical, canonicalItems_eq_map, canonicalItems_eq_map, hkeys]
    exact ⟨rfl, hend⟩
  | _ => simp [typeName] at htype

/-- An entry is told from every text that begins with it if its value is. -/
theorem told_entry {e : String × Value} (he : Told displayChars canonical e.2) :
    Told (fun e => keyed e.1 e.2.displayChars) (fun e => (e.1, e.2.canonical)) e := by
  intro f rest rest' hrest hrest' h
  simp only [keyed, List.append_assoc, List.cons_append] at h
  obtain ⟨hkey, hvalue⟩ := Quoted.quote_append_inj h
  simp only [List.cons.injEq, true_and] at hvalue
  obtain ⟨hcanonical, hend⟩ := he f.2 rest rest' hrest hrest' hvalue
  exact ⟨Prod.ext hkey hcanonical, hend⟩

/-- A mapping is told from every text that begins with it if the values of its entries are. -/
theorem told_map {entries : List (String × Value)}
    (hentries : ∀ e ∈ entries, Told displayChars canonical e.2) :
    Told displayChars canonical (map entries) := by
  intro w rest rest' hrest hrest' h
  have htype : (map entries).typeName = w.typeName := typeName_eq_of_append hrest hrest' h
  cases w with
  | map entries' =>
    simp only [displayChars, braced, displayEntries_eq_map, List.cons_append, List.append_assoc,
      List.nil_append, List.cons.injEq, true_and] at h
    have hclose : isStop '\x7d' = true := rfl
    obtain ⟨hkeys, hend⟩ := told_separated hclose (by decide)
      (fun e rest rest' => by simp [keyed, Quoted.quote]) (fun e he => told_entry (hentries e he)) h
    rw [canonical, canonical, canonicalEntries_eq_map, canonicalEntries_eq_map, hkeys]
    exact ⟨rfl, hend⟩
  | _ => simp [typeName] at htype

mutual

/-- Every value is told from every text that begins with it. -/
theorem told_displayChars : (v : Value) → Told displayChars canonical v
  | none | bool _ | int _ | float _ => told_word rfl
  | str s => told_str s
  | list items => told_list (told_displayItems items)
  | map entries => told_map (told_displayEntries entries)

/-- So is every item of a sequence. -/
theorem told_displayItems :
    (items : List Value) → ∀ v ∈ items, Told displayChars canonical v
  | [] => by simp
  | v :: vs => List.forall_mem_cons.mpr ⟨told_displayChars v, told_displayItems vs⟩

/-- So is the value of every entry. -/
theorem told_displayEntries :
    (entries : List (String × Value)) → ∀ e ∈ entries, Told displayChars canonical e.2
  | [] => by simp
  | (_, v) :: es => List.forall_mem_cons.mpr ⟨told_displayChars v, told_displayEntries es⟩

end

/-- Two values of any depth are displayed alike exactly if they are the same value, the words that
denote no number being displayed alike; in particular only values of the same type are. -/
theorem display_eq_iff (v w : Value) :
    (v.display = w.display ↔ v.canonical = w.canonical) ∧
      (v.display = w.display → v.typeName = w.typeName) := by
  have hchars : v.display = w.display ↔ v.displayChars = w.displayChars := String.ofList_inj
  refine ⟨⟨fun h => ?told, fun h => ?alike⟩, fun h => ?type⟩
  case told =>
    have happend : v.displayChars ++ [] = w.displayChars ++ [] := by rw [hchars.mp h]
    exact (v.told_displayChars w [] [] stops_nil stops_nil happend).1
  case alike =>
    rw [hchars, ← v.displayChars_canonical, h, w.displayChars_canonical]
  case type =>
    have happend : v.displayChars ++ [] = w.displayChars ++ [] := by rw [hchars.mp h]
    exact typeName_eq_of_append stops_nil stops_nil happend

end Value

end Delegation
