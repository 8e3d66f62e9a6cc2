import Mathlib.Data.List.Forall2
import Delegation.Exposure.Capture
/-!
# The grammar of helper attributes

What helper attributes say, apart from the functions that read them, and with
them which patterns are identifiers and which types are references. Every
reader succeeds on exactly what its grammar says, with exactly what that says:
the readers of settings, of roles, and of all the attributes of a name.
-/

namespace Delegation

open Source

section Outcomes

variable {ε α β : Type} {b : β}

/-- A step after another one gives a value exactly if both do. -/
theorem except_bind_eq_ok {x : Except ε α} {f : α → Except ε β} :
    (x >>= f) = .ok b ↔ ∃ a, x = .ok a ∧ f a = .ok b := by
  cases x <;> simp [bind, Except.bind]

/-- A value is made of what is given exactly if it is given. -/
theorem except_map_eq_ok {x : Except ε α} {f : α → β} :
    x.map f = .ok b ↔ ∃ a, x = .ok a ∧ b = f a := by
  cases x <;> simp [Except.map, eq_comm]

end Outcomes

/-- An attribute of a name says something in its list. -/
def Source.Attribute.Tells {α : Type} (name : String) (said : List Tree → α → Prop) (a : Attribute)
    (x : α) : Prop :=
  ∃ inside, a.argument? name = some (.listed inside) ∧ said inside x

namespace Capture

variable {α : Type} {expression : ExpressionReader} {ts : List Tree} {as : List Attribute}

/-- The insides of a helper attribute say old names and what they stand for. A comma may follow
each rule. -/
inductive TellsRules : List Tree → List (String × String) → Prop where
  /-- They say nothing. -/
  | nil : TellsRules [] []
  /-- A rule without a comma after it. -/
  | rule {word written text : String} {joint : Bool} {ts : List Tree}
      {rules : List (String × String)} (value : Literal.value? written = some text)
      (rest : TellsRules ts rules) :
      TellsRules (.word word :: .mark '=' joint :: .literal written :: ts)
        ((unraw word, text) :: rules)
  /-- A rule with a comma after it. -/
  | comma {word written text : String} {joint joint' : Bool} {ts : List Tree}
      {rules : List (String × String)} (value : Literal.value? written = some text)
      (rest : TellsRules ts rules) :
      TellsRules (.word word :: .mark '=' joint :: .literal written :: .mark ',' joint' :: ts)
        ((unraw word, text) :: rules)

/-- The insides of a helper attribute say one role. -/
inductive TellsRole (expression : ExpressionReader) :
    List Tree → Role (Option (List Tree)) → Prop where
  /-- A default that is left out. -/
  | default : TellsRole expression [.word "default"] (.default none)
  /-- A default that is one expression, with nothing after it. -/
  | value {joint : Bool} {ts value : List Tree} (read : expression ts = .ok (value, [])) :
      TellsRole expression (.word "default" :: .mark '=' joint :: ts) (.default (some value))
  /-- What collects values given by position. -/
  | varargs : TellsRole expression [.word "varargs"] .varargs
  /-- What collects keywords. -/
  | varkw : TellsRole expression [.word "varkw"] .varkw

/-- The text of a setting is that of the literal at the start. -/
theorem readText_eq_ok {text : String} : SettingNames.readText ts = .ok text ↔
    ∃ written rest, ts = .literal written :: rest ∧ Literal.value? written = some text := by
  unfold SettingNames.readText
  split
  · simp
  · rename_i written rest
    cases hvalue : Literal.value? written <;> simp [hvalue]
  · rename_i hnil hliteral
    simp only [reduceCtorEq, false_iff]
    rintro ⟨written, rest, rfl, -⟩
    exact hliteral written rest rfl

/-- What follows a setting: a comma after it is passed over. -/
def afterSetting : List Tree → List Tree
  | .mark ',' _ :: ts => ts
  | ts => ts

/-- A setting is read with its text, and then what follows it. -/
theorem read_every_setting {word written text : String} {joint : Bool}
    (hvalue : Literal.value? written = some text) (ts : List Tree) :
    SettingNames.read .every (.word word :: .mark '=' joint :: .literal written :: ts) =
      (SettingNames.read .every (afterSetting ts)).map ((unraw word, text) :: ·) := by
  have htext : SettingNames.readText (.literal written :: ts) = .ok text :=
    readText_eq_ok.2 ⟨written, ts, rfl, hvalue⟩
  rw [SettingNames.read]
  simp only [SettingNames.wordFault?, SettingNames.nameFault?, Option.or_none, htext]
  fun_cases afterSetting ts with
  | case1 joint' rest =>
    simp only [bind, Except.bind]
    cases SettingNames.read .every rest <;> rfl
  | case2 hnone =>
    simp only [bind, Except.bind]
    cases SettingNames.read .every ts <;> rfl

/-- What is read from at least one tree starts with a setting. -/
theorem exists_setting_of_read {rules : List (String × String)} (hts : ts ≠ [])
    (h : SettingNames.read .every ts = .ok rules) :
    ∃ word joint written text rest, ts = .word word :: .mark '=' joint :: .literal written :: rest ∧
      Literal.value? written = some text := by
  rw [SettingNames.read.eq_def] at h
  split at h
  · exact absurd rfl hts
  · rename_i word joint rest
    simp only [SettingNames.wordFault?, SettingNames.nameFault?, Option.or_none] at h
    obtain ⟨text, htext, -⟩ := except_bind_eq_ok.1 h
    obtain ⟨written, rest', rfl, hvalue⟩ := readText_eq_ok.1 htext
    exact ⟨word, joint, written, text, rest', rfl, hvalue⟩
  · cases h
  · cases h

/-- Rules are read from exactly what says them. -/
theorem read_every_eq_ok {rules : List (String × String)} :
    SettingNames.read .every ts = .ok rules ↔ TellsRules ts rules := by
  constructor
  · intro h
    -- A setting takes up to four trees, so the induction is on the number of trees.
    induction hn : ts.length using Nat.strongRecOn generalizing ts rules with
    | ind n ih =>
      by_cases hts : ts = []
      · subst hts
        cases h
        exact .nil
      · obtain ⟨word, joint, written, text, rest, rfl, hvalue⟩ := exists_setting_of_read hts h
        rw [read_every_setting hvalue] at h
        obtain ⟨more, hrest, rfl⟩ := except_map_eq_ok.1 h
        have hshorter : (afterSetting rest).length ≤ rest.length := by
          fun_cases afterSetting rest <;> simp
        have hmore := ih _ (by rw [← hn]; simp; omega) hrest rfl
        revert hmore
        fun_cases afterSetting rest with
        | case1 joint' ts' => exact .comma hvalue
        | case2 => exact .rule hvalue
  · intro h
    induction h with
    | nil => rfl
    | rule value rest ih =>
      rw [read_every_setting value, afterSetting, ih]
      · rfl
      · rintro joint' ts' rfl
        cases rest
    | comma value rest ih =>
      rw [read_every_setting value, afterSetting, ih]
      rfl

/-- A role with nothing after it is read. -/
theorem bareRole_eq_ok {role r : Role (Option (List Tree))} {rest : List Tree} :
    bareRole role rest = .ok r ↔ rest = [] ∧ role = r := by
  unfold bareRole
  cases rest <;> simp

/-- A role is read from exactly what says it. -/
theorem readRole_eq_ok {r : Role (Option (List Tree))} :
    readRole expression ts = .ok r ↔ TellsRole expression ts r := by
  constructor
  · intro h
    unfold readRole at h
    split at h
    · cases h
    · rename_i w rest
      split_ifs at h with hkeyword hvarargs hvarkw hdefault
      · subst hvarargs
        obtain ⟨rfl, rfl⟩ := bareRole_eq_ok.1 h
        exact .varargs
      · subst hvarkw
        obtain ⟨rfl, rfl⟩ := bareRole_eq_ok.1 h
        exact .varkw
      · subst hdefault
        split at h
        · split at h
          · rename_i hvalue
            cases h
            exact .value hvalue
          · cases h
          · cases h
        · obtain ⟨rfl, rfl⟩ := bareRole_eq_ok.1 h
          exact .default
    · cases h
  · intro h
    cases h with
    | value read => simp [readRole, read, isKeyword, reservedWords]
    | _ => rfl

/-- An attribute of another name has nothing to say. -/
theorem readHelpers_cons_of_none {name : String} {read : List Tree → Except ExposureFault α}
    {a : Attribute} (h : a.argument? name = none) :
    readHelpers name read (a :: as) = readHelpers name read as := by
  simp [readHelpers, h]

/-- An attribute of the name says something before those after it. -/
theorem readHelpers_cons_of_some {name : String} {read : List Tree → Except ExposureFault α}
    {a : Attribute} {argument : Attribute.Argument} (h : a.argument? name = some argument) :
    readHelpers name read (a :: as) = readHelper name read a argument ::
      readHelpers name read as := by
  simp [readHelpers, h]

/-- The helper attributes of a name are read if each of them says something. -/
theorem readHelpers_eq_ok {name : String} {read : List Tree → Except ExposureFault α}
    {said : List Tree → α → Prop} (hread : ∀ ts x, read ts = .ok x ↔ said ts x) {xs : List α} :
    readHelpers name read as = xs.map .ok ↔
      List.Forall₂ (Attribute.Tells name said) (as.filter (·.isNamed name)) xs := by
  induction as generalizing xs with
  | nil => cases xs <;> simp [readHelpers]
  | cons a as ih =>
    cases hnamed : a.argument? name with
    | none =>
      have hfilter : (a :: as).filter (·.isNamed name) = as.filter (·.isNamed name) := by
        simp [Attribute.isNamed, hnamed]
      rw [readHelpers_cons_of_none hnamed, hfilter, ih]
    | some argument =>
      have hfilter : (a :: as).filter (·.isNamed name) = a :: as.filter (·.isNamed name) := by
        simp [Attribute.isNamed, hnamed]
      rw [readHelpers_cons_of_some hnamed, hfilter]
      cases xs with
      | nil => simp
      | cons x xs =>
        have htells : readHelper name read a argument = .ok x ↔ a.Tells name said x := by
          cases argument <;> simp [readHelper, Attribute.Tells, hnamed, hread]
        simp only [List.map_cons, List.cons.injEq, List.forall₂_cons, htells, ih]

/-- The old names that attributes give: what each helper attribute among them says, in order. -/
def GivesRenames (as : List Attribute) (r : Renaming) : Prop :=
  ∃ rules, List.Forall₂ (Attribute.Tells renamesHelper TellsRules)
    (as.filter (·.isNamed renamesHelper)) rules ∧ r = ⟨rules.flatten⟩

/-- The role that attributes give: that of the one helper attribute among them, and without one
that of a parameter which callers must give. -/
inductive GivesRole (expression : ExpressionReader) (as : List Attribute) :
    Role (Option (List Tree)) → Prop where
  /-- No attribute says a role. -/
  | required (none : as.filter (·.isNamed roleHelper) = []) : GivesRole expression as .required
  /-- One attribute says a role. -/
  | said {a : Attribute} {r : Role (Option (List Tree))}
      (only : as.filter (·.isNamed roleHelper) = [a])
      (tells : a.Tells roleHelper (TellsRole expression) r) : GivesRole expression as r

/-- Old names are read if every helper attribute says some. -/
theorem renames_eq_ok {r : Renaming} : renames as = .ok r ↔ GivesRenames as r := by
  unfold renames
  simp only [except_map_eq_ok, allOrLast_eq_ok, readHelpers_eq_ok fun ts rules => read_every_eq_ok,
    GivesRenames]

/-- Nothing is refused for being repeated if there is at most one value and none before it. -/
theorem refuseRepeated_eq_ok {taken : Bool} {rs : List (Except ExposureFault α)} {xs : List α} :
    refuseRepeated taken rs = xs.map .ok ↔
      rs = xs.map .ok ∧ (taken = true → xs = []) ∧ xs.length ≤ 1 := by
  induction rs generalizing taken xs with
  | nil => cases xs <;> simp [refuseRepeated]
  | cons r rs ih =>
    cases xs with
    | nil => cases r <;> simp [refuseRepeated]
    | cons x xs =>
      cases r with
      | error e => simp [refuseRepeated]
      | ok y =>
        rw [refuseRepeated, List.map_cons, List.cons.injEq, ih]
        cases taken with
        | true => simp
        | false =>
          constructor
          · rintro ⟨hy, hrs, hxs, -⟩
            obtain rfl := hxs rfl
            simp_all
          · rintro ⟨hy, -, hlength⟩
            obtain rfl : xs = [] := by
              cases xs with
              | nil => rfl
              | cons x' xs => simp at hlength
            simp_all

/-- A role is read if at most one helper attribute is there and says it. -/
theorem role_eq_ok {r : Role (Option (List Tree))} :
    role expression as = .ok r ↔ GivesRole expression as r := by
  unfold role
  simp only [except_map_eq_ok, allOrLast_eq_ok, refuseRepeated_eq_ok,
    readHelpers_eq_ok fun ts r => readRole_eq_ok, Bool.false_eq_true, false_implies, true_and]
  constructor
  · rintro ⟨roles, ⟨hroles, hlength⟩, rfl⟩
    cases roles with
    | nil => exact .required (List.forall₂_nil_right_iff.1 hroles)
    | cons r rest =>
      obtain rfl : rest = [] := List.length_eq_zero_iff.1 (by simpa using hlength)
      obtain ⟨a, as', htells, has', hfilter⟩ := List.forall₂_cons_right_iff.1 hroles
      rw [List.forall₂_nil_right_iff.1 has'] at hfilter
      exact .said hfilter htells
  · intro h
    cases h with
    | required hnone => exact ⟨[], ⟨by simp [hnone], by simp⟩, rfl⟩
    | said honly htells => exact ⟨[r], ⟨by simp [honly, htells], by simp⟩, rfl⟩

/-- A pattern is an identifier. It may be marked as a reference and as changeable, and may be
bound to more; only as a reference it may be the word of the receiver. -/
def IdentifierPattern (pattern : List Tree) (ident : String) : Prop :=
  ∃ (byReference changeable : Bool) (more : List Tree),
    pattern = (if byReference then [.word "ref"] else []) ++
      (if changeable then [.word "mut"] else []) ++ .word ident :: more ∧
    (more = [] ∨ ∃ joint rest, more = .mark '@' joint :: rest) ∧
    (isIdentifier ident = true ∨ byReference = true ∧ ident = "self")

/-- What follows the mark of a changeable identifier, if it is there. -/
def afterChangeable : List Tree → List Tree
  | .word "mut" :: ts => ts
  | ts => ts

/-- The identifier at the start of trees, which end with it or go on with what it is bound to
besides. -/
def bound? (byReference : Bool) (ts : List Tree) : Option String :=
  match ts with
  | [.word w] => if isIdentifier w || (byReference && w = "self") then some w else none
  | .word w :: .mark '@' _ :: _ =>
    if isIdentifier w || (byReference && w = "self") then some w else none
  | _ => none

/-- After the mark of a reference, the word of the receiver is an identifier too. -/
theorem identifier?_reference (ts : List Tree) :
    identifier? (.word "ref" :: ts) = bound? true (afterChangeable ts) := by
  unfold identifier? bound? afterChangeable
  rfl

/-- Without the mark of a reference it is none. -/
theorem identifier?_plain {pattern : List Tree} (h : ∀ ts, pattern ≠ .word "ref" :: ts) :
    identifier? pattern = bound? false (afterChangeable pattern) := by
  unfold identifier? bound? afterChangeable
  split
  rename_i heq
  split at heq
  · exact absurd rfl (h _)
  · cases heq
    rfl

/-- What is found is at the start. -/
theorem bound?_eq_some {byReference : Bool} {ts : List Tree} {ident : String} :
    bound? byReference ts = some ident ↔ ∃ more, ts = .word ident :: more ∧
      (more = [] ∨ ∃ joint rest, more = .mark '@' joint :: rest) ∧
      (isIdentifier ident = true ∨ byReference = true ∧ ident = "self") := by
  constructor
  · intro h
    unfold bound? at h
    split at h
    · split_ifs at h with hnamed
      cases h
      exact ⟨[], rfl, .inl rfl, by simpa using hnamed⟩
    · split_ifs at h with hnamed
      cases h
      exact ⟨_, rfl, .inr ⟨_, _, rfl⟩, by simpa using hnamed⟩
    · cases h
  · rintro ⟨more, rfl, hmore, hnamed⟩
    have hnamed' : (isIdentifier ident || (byReference && decide (ident = "self"))) = true := by
      simpa using hnamed
    rcases hmore with rfl | ⟨joint, rest, rfl⟩
    · exact if_pos hnamed'
    · exact if_pos hnamed'

/-- The marks of a pattern are no identifiers. -/
theorem ne_mark_of_named {byReference : Bool} {w : String}
    (h : isIdentifier w = true ∨ byReference = true ∧ w = "self") : w ≠ "mut" ∧ w ≠ "ref" := by
  constructor <;> rintro rfl <;> revert h <;> decide +revert

/-- The mark of a changeable identifier is passed over. -/
theorem afterChangeable_append {ident : String} (hne : ident ≠ "mut") (changeable : Bool)
    (more : List Tree) : afterChangeable ((if changeable then [.word "mut"] else []) ++
      .word ident :: more) = .word ident :: more := by
  cases changeable with
  | true => rfl
  | false => simp [afterChangeable, hne]

/-- The identifier that is found is what the pattern is. -/
theorem identifierPattern_of_identifier? {pattern : List Tree} {ident : String}
    (h : identifier? pattern = some ident) : IdentifierPattern pattern ident := by
  have hfound : ∃ byReference ts, pattern = (if byReference then [.word "ref"] else []) ++ ts ∧
      bound? byReference (afterChangeable ts) = some ident := by
    by_cases hreference : ∃ ts, pattern = .word "ref" :: ts
    · obtain ⟨ts, rfl⟩ := hreference
      exact ⟨true, ts, rfl, identifier?_reference ts ▸ h⟩
    · exact ⟨false, pattern, rfl, identifier?_plain (fun ts hts => hreference ⟨ts, hts⟩) ▸ h⟩
  obtain ⟨byReference, ts, rfl, hbound⟩ := hfound
  obtain ⟨more, hts, hmore, hnamed⟩ := bound?_eq_some.1 hbound
  revert hts
  fun_cases afterChangeable ts with
  | case1 rest =>
    rintro rfl
    exact ⟨byReference, true, more, by simp, hmore, hnamed⟩
  | case2 =>
    rintro rfl
    exact ⟨byReference, false, more, by simp, hmore, hnamed⟩

/-- The identifier that a pattern is, is found. -/
theorem identifier?_eq_some {pattern : List Tree} {ident : String} :
    identifier? pattern = some ident ↔ IdentifierPattern pattern ident := by
  refine ⟨identifierPattern_of_identifier?, ?_⟩
  rintro ⟨byReference, changeable, more, rfl, hmore, hnamed⟩
  obtain ⟨hmut, href⟩ := ne_mark_of_named hnamed
  have hrest := afterChangeable_append hmut changeable more
  have hbound := bound?_eq_some.2 ⟨more, rfl, hmore, hnamed⟩
  rw [List.append_assoc]
  cases byReference with
  | true =>
    change identifier? (.word "ref" ::
      ((if changeable then [.word "mut"] else []) ++ .word ident :: more)) = some ident
    rw [identifier?_reference, hrest, hbound]
  | false =>
    have hplain : ∀ ts, (if changeable then [.word "mut"] else []) ++ .word ident :: more ≠
        .word "ref" :: ts := by
      cases changeable <;> simp [href]
    change identifier? ((if changeable then [.word "mut"] else []) ++ .word ident :: more) =
      some ident
    rw [identifier?_plain hplain, hrest, hbound]

/-- A type is a reference. -/
def IsReference (type : List Tree) : Prop := ∃ joint rest, type = .mark '&' joint :: rest

/-- References are told by their first tree. -/
theorem isReference_iff {type : List Tree} : isReference type = true ↔ IsReference type := by
  unfold isReference IsReference
  match type with
  | [] => simp
  | .mark c joint :: rest => simp [Tree.isMark]
  | .word _ :: _ | .literal _ :: _ | .group _ _ :: _ => simp [Tree.isMark]

end Capture

end Delegation
