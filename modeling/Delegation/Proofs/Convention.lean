import Delegation.Proofs.Relay
/-!
# The calling convention

When arguments bind, and what every parameter is then bound to. Filling goes
through the parameters in their order and never looks back, so the value of a
parameter depends on its place and its name alone: the value given by position
at that place, else that of its keyword, else its default. Together with the
names being distinct this gives the convention place by place, and that every
value of a call arrives at one place and no other.
-/

namespace Delegation.Signature

variable {s : Signature} {a : Arguments} {b : Binding} {function : String}
  {keywords : NameMap Value} {ps : List Parameter} {vs : List Value}
  {bound : List (String × Value)}

/-- The value that the parameter at a place is bound to: the one given by position there, else
that of its keyword, else its default. -/
def valueAt? (keywords : NameMap Value) (vs : List Value) (i : Nat) (p : Parameter) :
    Option Value := vs[i]?.or (keywords[p.name]?.or p.default)

/-- A parameter beyond the values given by position has the value of its keyword or its default. -/
theorem valueAt?_of_le {i : Nat} (hi : vs.length ≤ i) (p : Parameter) :
    valueAt? keywords vs i p = keywords[p.name]?.or p.default := by
  rw [valueAt?, List.getElem?_eq_none hi, Option.none_or]

/-- The value of a parameter is the one given by position, or the one it has without. -/
theorem valueAt?_eq_ite (i : Nat) (p : Parameter) : valueAt? keywords vs i p =
    if i < vs.length then vs[i]? else keywords[p.name]?.or p.default := by
  by_cases hi : i < vs.length
  · rw [valueAt?, if_pos hi, List.getElem?_eq_getElem hi, Option.some_or]
  · rw [valueAt?_of_le (Nat.not_lt.1 hi), if_neg hi]

/-- The value of a later parameter is that among the later values. -/
theorem valueAt?_succ (i : Nat) (p : Parameter) :
    valueAt? keywords vs (i + 1) p = valueAt? keywords vs.tail i p := by
  rw [valueAt?, valueAt?, List.getElem?_tail]

/-- Filling parameters looks at the value of the first one and fills the others with the values
left. -/
theorem fill_cons (p : Parameter) : fill function keywords (p :: ps) vs =
    match valueAt? keywords vs 0 p with
    | some v => (fill function keywords ps vs.tail).map ((p.name, v) :: ·)
    | none => .error (.missingArgument function p.name) := by
  cases vs with
  | cons v vs => rfl
  | nil =>
    rw [fill, valueAt?_of_le (Nat.le_refl 0)]
    rfl

/-- Filling parameters gives the first one its value and fills the others with the values left. -/
theorem fill_cons_eq_ok {p : Parameter} : fill function keywords (p :: ps) vs = .ok bound ↔
    ∃ v rest, valueAt? keywords vs 0 p = some v ∧
      fill function keywords ps vs.tail = .ok rest ∧ (p.name, v) :: rest = bound := by
  rw [fill_cons]
  cases valueAt? keywords vs 0 p with
  | none => simp
  | some v => cases fill function keywords ps vs.tail <;> simp [Except.map]

/-- All parameters can be filled exactly if each has a value. -/
theorem exists_fill_iff : (∃ bound, fill function keywords ps vs = .ok bound) ↔
    ∀ i p, ps[i]? = some p → (valueAt? keywords vs i p).isSome = true := by
  induction ps generalizing vs with
  | nil => simp [fill]
  | cons p ps ih =>
    have hstep : (∃ bound, fill function keywords (p :: ps) vs = .ok bound) ↔
        (valueAt? keywords vs 0 p).isSome = true ∧
          ∃ rest, fill function keywords ps vs.tail = .ok rest := by
      simp only [fill_cons_eq_ok, Option.isSome_iff_exists]
      constructor
      · rintro ⟨bound, v, rest, hv, hrest, -⟩
        exact ⟨⟨v, hv⟩, rest, hrest⟩
      · rintro ⟨⟨v, hv⟩, rest, hrest⟩
        exact ⟨_, v, rest, hv, hrest, rfl⟩
    rw [hstep, ih]
    constructor
    · rintro ⟨hfirst, hothers⟩ i q hq
      cases i with
      | zero => exact Option.some.inj hq ▸ hfirst
      | succ i =>
        rw [valueAt?_succ]
        exact hothers i q hq
    · intro h
      refine ⟨h 0 p rfl, fun i q hq => ?_⟩
      rw [← valueAt?_succ]
      exact h (i + 1) q hq

/-- Filled parameters stand in their order, each with its value. -/
theorem getElem?_fill (h : fill function keywords ps vs = .ok bound) (i : Nat) :
    bound[i]? = ps[i]?.bind fun p => (valueAt? keywords vs i p).map (p.name, ·) := by
  induction ps generalizing vs bound i with
  | nil =>
    cases h
    rfl
  | cons p ps ih =>
    obtain ⟨v, rest, hv, hrest, rfl⟩ := fill_cons_eq_ok.1 h
    cases i with
    | zero =>
      rw [List.getElem?_cons_zero, List.getElem?_cons_zero, Option.bind_some, hv]
      rfl
    | succ i =>
      simp only [valueAt?_succ]
      exact ih hrest i

/-- A name is that of a parameter exactly if the parameter at some place has it. -/
theorem mem_paramNames {k : String} : k ∈ s.paramNames ↔
    ∃ (i : Nat) (p : Parameter), s.params[i]? = some p ∧ p.name = k := by
  rw [paramNames, List.mem_map]
  constructor
  · rintro ⟨p, hmem, hname⟩
    obtain ⟨i, hp⟩ := List.mem_iff_getElem?.1 hmem
    exact ⟨i, p, hp, hname⟩
  · rintro ⟨i, p, hp, hname⟩
    exact ⟨p, List.mem_of_getElem? hp, hname⟩

/-- The name of the parameter at a place is one of the names. -/
theorem name_mem_paramNames {i : Nat} {p : Parameter} (hp : s.params[i]? = some p) :
    p.name ∈ s.paramNames := mem_paramNames.2 ⟨i, p, hp, rfl⟩

/-- A name is filled by position exactly if it is that of a parameter at one of the first places. -/
theorem mem_filledNames {given : Nat} {k : String} : k ∈ s.filledNames given ↔
    ∃ (i : Nat) (p : Parameter), i < given ∧ s.params[i]? = some p ∧ p.name = k := by
  rw [filledNames, paramNames, List.mem_iff_getElem?]
  simp only [List.getElem?_take, List.getElem?_map]
  constructor
  · rintro ⟨i, hi⟩
    split at hi
    · rename_i hlt
      obtain ⟨p, hp, hname⟩ := Option.map_eq_some_iff.1 hi
      exact ⟨i, p, hlt, hp, hname⟩
    · cases hi
  · rintro ⟨i, p, hlt, hp, rfl⟩
    exact ⟨i, by rw [if_pos hlt, hp]; rfl⟩

/-- Arguments bind exactly if they have room, every keyword has a place of its own and every
parameter has a value. -/
theorem exists_bind_iff : (∃ b, s.bind a = .ok b) ↔
    (a.positional.length ≤ s.params.length ∨ s.varargs ≠ none) ∧
    (∀ k ∈ a.keywords, s.keywordFault? a.positional.length k = none) ∧
    ∀ i p, s.params[i]? = some p →
      (valueAt? a.keywords a.positional i p).isSome = true := by
  have hfills : (∃ bound, fill s.name a.keywords s.params a.positional = .ok bound) ↔ _ :=
    exists_fill_iff
  rw [← hfills]
  constructor
  · rintro ⟨b, h⟩
    have hb := bind_eq_ok_iff.1 h
    exact ⟨hb.room, hb.keywords, b.params, hb.params⟩
  · rintro ⟨hroom, hkeywords, bound, hfill⟩
    exact ⟨⟨bound, _, _⟩, bind_eq_ok_iff.2 ⟨hroom, hkeywords, hfill, rfl, rfl⟩⟩

/-- No keyword has a fault exactly if none names a parameter filled by position and those that name
no parameter are collected. -/
theorem keywords_fit_iff {given : Nat} :
    (∀ k ∈ a.keywords, s.keywordFault? given k = none) ↔
      (∀ i p, s.params[i]? = some p → i < given → p.name ∉ a.keywords) ∧
      ∀ k ∈ a.keywords, k ∉ s.paramNames → s.varkw.isSome = true := by
  simp only [keywordFault?_eq_none_iff, mem_filledNames]
  constructor
  · intro h
    refine ⟨fun i p hp hi hk => ?_, fun k hk hname => (h k hk).2.resolve_left hname⟩
    exact (h p.name hk).1 ⟨i, p, hi, hp, rfl⟩
  · rintro ⟨hfilled, hother⟩ k hk
    constructor
    · rintro ⟨i, p, hi, hp, rfl⟩
      exact hfilled i p hp hi hk
    · by_cases hname : k ∈ s.paramNames
      · exact .inl hname
      · exact .inr (hother k hk hname)

/-- Every parameter has a value exactly if each of those not filled by position has a default or a
keyword. -/
theorem values_complete_iff :
    (∀ i p, s.params[i]? = some p → (valueAt? a.keywords a.positional i p).isSome = true) ↔
      ∀ i p, s.params[i]? = some p → a.positional.length ≤ i →
        p.default.isSome = true ∨ p.name ∈ a.keywords := by
  constructor
  · intro h i p hp hi
    have hvalue := h i p hp
    rw [valueAt?_of_le hi, Option.isSome_or, Bool.or_eq_true] at hvalue
    exact hvalue.symm.imp_right Std.ExtTreeMap.mem_iff_isSome_getElem?.2
  · intro h i p hp
    by_cases hi : a.positional.length ≤ i
    · rw [valueAt?_of_le hi, Option.isSome_or, Bool.or_eq_true]
      exact (h i p hp hi).symm.imp_left Std.ExtTreeMap.mem_iff_isSome_getElem?.1
    · rw [valueAt?, List.getElem?_eq_getElem (Nat.not_le.1 hi)]
      rfl

/-- A bound parameter stands at the place of its declaration, with its value. -/
theorem Binds.getElem?_params (h : s.Binds a b) (i : Nat) : b.params[i]? =
    s.params[i]?.bind fun p => (valueAt? a.keywords a.positional i p).map (p.name, ·) :=
  getElem?_fill h.params i

/-- The values given by position are those of the first parameters and those collected. -/
theorem Binds.positional_eq (h : s.Binds a b) :
    a.positional = (b.params.take a.positional.length).map (·.2) ++ b.varargs := by
  have hlength : b.params.length = s.params.length := by
    simpa using congrArg List.length (fill_names h.params)
  apply List.ext_getElem?
  intro i
  rw [h.varargs, List.getElem?_append, List.length_map, List.length_take, hlength]
  by_cases hgiven : i < a.positional.length
  · by_cases hi : i < s.params.length
    · rw [if_pos (Nat.lt_min.2 ⟨hgiven, hi⟩), List.getElem?_map, List.getElem?_take,
        if_pos hgiven, h.getElem?_params, List.getElem?_eq_getElem hi, Option.bind_some, valueAt?,
        List.getElem?_eq_getElem hgiven]
      rfl
    · rw [if_neg fun hlt => hi (Nat.lt_min.1 hlt).2, List.getElem?_drop]
      congr 1
      omega
  · rw [if_neg fun hlt => hgiven (Nat.lt_min.1 hlt).1, List.getElem?_drop,
      List.getElem?_eq_none (Nat.not_lt.1 hgiven), List.getElem?_eq_none (by omega)]

/-- A value given by keyword is that of one parameter not filled by position, or it is collected. -/
theorem Binds.keyword_arrives (h : s.Binds a b) {k : String} {v : Value}
    (hk : a.keywords[k]? = some v) :
    ((k, v) ∈ b.params.drop a.positional.length ∧ k ∉ b.varkw) ∨
      (k ∉ s.paramNames ∧ b.varkw[k]? = some v) := by
  have hmem : k ∈ a.keywords := (Std.ExtTreeMap.getElem?_eq_some_iff.1 hk).1
  by_cases hname : k ∈ s.paramNames
  · left
    refine ⟨?_, fun hcollected => (h.mem_varkw hcollected).1 hname⟩
    obtain ⟨i, p, hi, rfl⟩ := mem_paramNames.1 hname
    have hle : a.positional.length ≤ i := Nat.not_lt.1 fun hlt =>
      (keywords_fit_iff.1 h.keywords).1 i p hi hlt hmem
    refine List.mem_iff_getElem?.2 ⟨i - a.positional.length, ?_⟩
    rw [List.getElem?_drop, Nat.add_sub_cancel' hle, h.getElem?_params, hi, Option.bind_some,
      valueAt?_of_le hle, hk]
    rfl
  · right
    refine ⟨hname, ?_⟩
    rw [h.varkw, Std.ExtTreeMap.getElem?_filter', hk]
    simp [hname]

/-- Arguments bind exactly if there are no more values by position than parameters or what exceeds
them is collected, no keyword names a parameter filled by position, keywords that name no parameter
are collected, and every parameter not filled by position has a default or a keyword. The bound
parameters are then the declared ones in their order, each with the value given by position at its
place, else that of its keyword, else its default; what exceeds the parameters by position is
collected, and so are the keywords that name none. So each value of a call arrives at one place:
those given by position at the first parameters or among those collected, in order, and one given
by keyword at one parameter or among those collected. -/
theorem bind_follows_convention (s : Signature) (a : Arguments) :
    ((∃ b, s.bind a = .ok b) ↔
      (a.positional.length ≤ s.params.length ∨ s.varargs ≠ none) ∧
      (∀ i p, s.params[i]? = some p → i < a.positional.length → p.name ∉ a.keywords) ∧
      (∀ k ∈ a.keywords, k ∉ s.paramNames → s.varkw.isSome = true) ∧
      ∀ i p, s.params[i]? = some p → a.positional.length ≤ i →
        p.default.isSome = true ∨ p.name ∈ a.keywords) ∧
    ∀ b, s.bind a = .ok b →
      (b.params.map (·.1) = s.paramNames ∧ s.paramNames.Nodup ∧
        (∀ i p, s.params[i]? = some p → b.params[i]? =
          (if i < a.positional.length then a.positional[i]?
            else a.keywords[p.name]?.or p.default).map (p.name, ·)) ∧
        b.varargs = a.positional.drop s.params.length ∧
        ∀ k, b.varkw[k]? = if k ∈ s.paramNames then none else a.keywords[k]?) ∧
      a.positional = (b.params.take a.positional.length).map (·.2) ++ b.varargs ∧
      ∀ k v, a.keywords[k]? = some v →
        ((k, v) ∈ b.params.drop a.positional.length ∧ k ∉ b.varkw) ∨
          (k ∉ s.paramNames ∧ b.varkw[k]? = some v) := by
  constructor
  · rw [exists_bind_iff, keywords_fit_iff, values_complete_iff, and_assoc]
  · intro b h
    have hb := bind_eq_ok_iff.1 h
    refine ⟨⟨bind_names h, s.paramNames_nodup, ?places, hb.varargs, ?collected⟩,
      hb.positional_eq, fun k v => hb.keyword_arrives⟩
    case places =>
      intro i p hp
      rw [hb.getElem?_params, hp, Option.bind_some, valueAt?_eq_ite]
    case collected =>
      intro k
      rw [hb.varkw, Std.ExtTreeMap.getElem?_filter']
      by_cases hk : k ∈ s.paramNames
      · rw [if_pos hk]
        cases a.keywords[k]? <;> simp [hk]
      · rw [if_neg hk]
        cases a.keywords[k]? <;> simp [hk]

/-- A call that gives one parameter by position, one by keyword and one keyword to be collected. -/
theorem bind_follows_convention_sample :
    ∃ b, Relay.sampleSignature.bind
        ⟨[.str "x"], .ofEntries [("fast", .bool true), ("target", .str "y")]⟩ = .ok b ∧
      b.params[1]? = some ("target", .str "y") ∧ b.varkw["fast"]? = some (.bool true) := by
  have h : Relay.sampleSignature.bind
      ⟨[.str "x"], .ofEntries [("fast", .bool true), ("target", .str "y")]⟩ =
      .ok ⟨[("item", .str "x"), ("target", .str "y")], [], .ofEntries [("fast", .bool true)]⟩ := by
    decide +kernel
  obtain ⟨⟨-, -, hplaces, -, hcollected⟩, -⟩ := (bind_follows_convention _ _).2 _ h
  exact ⟨_, h, (hplaces 1 ⟨"target", some .none⟩ rfl).trans (by decide +kernel),
    (hcollected "fast").trans (by decide +kernel)⟩

end Delegation.Signature
