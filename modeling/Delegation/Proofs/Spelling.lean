import Delegation.Proofs.Reporting
/-!
# Values given by position or by keyword

The values of a call from a place on can be given by the names of their
parameters. Binding looks at a call through what every parameter gets, which
keywords are misplaced and what is collected, so calls that agree in this bind
alike. A value that moves from its place to the name of its parameter changes
none of it, as long as every value has a parameter and its name was free.
-/

namespace Delegation.Signature

variable {s : Signature} {a a' : Arguments} {function k : String} {v : Value}
  {keywords keywords' : NameMap Value} {ps : List Parameter} {vs vs' : List Value} {i j : Nat}
  {p : Parameter}

/-- Parameters that have the same values are filled alike. -/
theorem fill_congr (h : ∀ i p, ps[i]? = some p →
    valueAt? keywords vs i p = valueAt? keywords' vs' i p) :
    fill function keywords ps vs = fill function keywords' ps vs' := by
  induction ps generalizing vs vs' with
  | nil => simp only [fill]
  | cons p ps ih =>
    have hothers : fill function keywords ps vs.tail = fill function keywords' ps vs'.tail := by
      refine ih fun i q hq => ?_
      rw [← valueAt?_succ, ← valueAt?_succ]
      exact h (i + 1) q hq
    rw [fill_cons, fill_cons, h 0 p rfl, hothers]

/-- Two calls look alike to a signature that has room for both. -/
structure Alike (s : Signature) (a a' : Arguments) : Prop where
  /-- There is room for the values that the first call gives by position. -/
  room : ¬ s.Exceeded a
  /-- There is room for those of the second call. -/
  room' : ¬ s.Exceeded a'
  /-- The same keywords have the same faults. -/
  faults : ∀ k e, k ∈ a.keywords ∧ s.keywordFault? a.positional.length k = some e ↔
    k ∈ a'.keywords ∧ s.keywordFault? a'.positional.length k = some e
  /-- Every parameter gets the same value. -/
  values : ∀ i p, s.params[i]? = some p →
    valueAt? a.keywords a.positional i p = valueAt? a'.keywords a'.positional i p
  /-- The same values are collected by position. -/
  varargs : a.positional.drop s.params.length = a'.positional.drop s.params.length
  /-- The same values are collected by keyword. -/
  varkw : ∀ k, k ∉ s.paramNames → a.keywords[k]? = a'.keywords[k]?

/-- Of calls that look alike the same keyword is reported. -/
theorem Alike.findSome?_keywordFault? (h : s.Alike a a') :
    a.keywords.keys.findSome? (s.keywordFault? a.positional.length) =
      a'.keywords.keys.findSome? (s.keywordFault? a'.positional.length) := by
  have hfaulty : ∀ k, k ∈ a.keywords ∧ (s.keywordFault? a.positional.length k).isSome = true ↔
      k ∈ a'.keywords ∧ (s.keywordFault? a'.positional.length k).isSome = true := by
    intro k
    simp only [Option.isSome_iff_exists, ← exists_and_left, h.faults]
  refine Option.ext fun e => ?_
  rw [findSome?_eq_some_of_increasing (keys_increasing a.keywords),
    findSome?_eq_some_of_increasing (keys_increasing a'.keywords)]
  simp only [Std.ExtTreeMap.mem_keys, ← and_assoc, ← and_imp, h.faults, hfaulty]

/-- Calls that look alike bind alike. -/
theorem Alike.bind_eq (h : s.Alike a a') : s.bind a = s.bind a' := by
  have hfill : fill s.name a.keywords s.params a.positional =
      fill s.name a'.keywords s.params a'.positional := fill_congr h.values
  have hcollected : (a.keywords.filter fun k _ => k ∉ s.paramNames) =
      a'.keywords.filter fun k _ => k ∉ s.paramNames := by
    refine Std.ExtTreeMap.ext_getElem? fun k => ?_
    rw [Std.ExtTreeMap.getElem?_filter', Std.ExtTreeMap.getElem?_filter']
    by_cases hname : k ∈ s.paramNames
    · simp [hname]
    · rw [h.varkw k hname]
  rw [bind_of_not_exceeded h.room, bind_of_not_exceeded h.room', h.findSome?_keywordFault?, hfill,
    h.varargs, hcollected]

/-- The call that gives the values from a place on by the names of their parameters. -/
def spell (s : Signature) (a : Arguments) (j : Nat) : Arguments where
  positional := a.positional.take j
  keywords := a.keywords.insertMany ((s.paramNames.zip a.positional).drop j)

/-- The values that are given by name are those from the place on, each under the name of the
parameter at its place. -/
theorem mem_drop_zip : (k, v) ∈ (s.paramNames.zip vs).drop j ↔
    ∃ (i : Nat) (p : Parameter),
      j ≤ i ∧ s.params[i]? = some p ∧ p.name = k ∧ vs[i]? = some v := by
  have hentry : ∀ i : Nat, (s.paramNames.zip vs)[i]? = some (k, v) ↔
      ∃ p, s.params[i]? = some p ∧ p.name = k ∧ vs[i]? = some v := by
    intro i
    rw [List.getElem?_zip_eq_some, paramNames, List.getElem?_map, Option.map_eq_some_iff]
    simp only [← exists_and_right, and_assoc]
  rw [List.mem_iff_getElem?]
  simp only [List.getElem?_drop, hentry]
  constructor
  · rintro ⟨i, p, hp⟩
    exact ⟨j + i, p, Nat.le_add_right j i, hp⟩
  · rintro ⟨i, p, hj, hp⟩
    exact ⟨i - j, p, by rwa [Nat.add_sub_cancel' hj]⟩

/-- No two values are given by one name. -/
theorem distinct_drop_zip (s : Signature) (vs : List Value) (j : Nat) :
    ((s.paramNames.zip vs).drop j).Pairwise fun e e' => ¬ compare e.1 e'.1 = .eq := by
  have hnames : ((s.paramNames.zip vs).map Prod.fst).Nodup := by
    rw [List.zip_eq_zip_take_min,
      List.map_fst_zip (by rw [List.length_take, List.length_take]; omega)]
    exact s.paramNames_nodup.sublist (List.take_sublist _ _)
  have hpairwise := (List.pairwise_map.1 hnames).sublist (List.drop_sublist j _)
  exact hpairwise.imp fun hne heq => hne (Std.LawfulEqCmp.eq_of_compare heq)

/-- A name that no value is given by keeps what it had. -/
theorem getElem?_spell_of_not_mem
    (hother : ∀ v, (k, v) ∉ (s.paramNames.zip a.positional).drop j) :
    (s.spell a j).keywords[k]? = a.keywords[k]? := by
  refine Std.ExtTreeMap.getElem?_insertMany_list_of_contains_eq_false ?_
  rw [← Bool.not_eq_true, List.contains_iff_mem, List.mem_map]
  rintro ⟨⟨k', v⟩, hmem, rfl⟩
  exact hother v hmem

/-- A call that spells values by name has under the name of a parameter the value from its place,
if that is one of those, and else what it had. -/
theorem getElem?_spell_of_place (hp : s.params[i]? = some p) :
    (s.spell a j).keywords[p.name]? =
      if j ≤ i then a.positional[i]?.or a.keywords[p.name]? else a.keywords[p.name]? := by
  have hkept (hother : ∀ v, (p.name, v) ∉ (s.paramNames.zip a.positional).drop j) :
      (s.spell a j).keywords[p.name]? = a.keywords[p.name]? := getElem?_spell_of_not_mem hother
  by_cases hj : j ≤ i
  · rw [if_pos hj]
    cases hv : a.positional[i]? with
    | some v =>
      exact Std.ExtTreeMap.getElem?_insertMany_list_of_mem Std.ReflCmp.compare_self
        (distinct_drop_zip s a.positional j) (mem_drop_zip.2 ⟨i, p, hj, hp, rfl, hv⟩)
    | none =>
      refine hkept fun v hmem => ?_
      obtain ⟨i', q, -, hq, hname, hv'⟩ := mem_drop_zip.1 hmem
      rw [place_unique hq hp hname, hv] at hv'
      cases hv'
  · rw [if_neg hj]
    refine hkept fun v hmem => ?_
    obtain ⟨i', q, hi', hq, hname, -⟩ := mem_drop_zip.1 hmem
    exact hj (place_unique hq hp hname ▸ hi')

/-- Under other names it has what it had. -/
theorem getElem?_spell_of_other (hname : k ∉ s.paramNames) :
    (s.spell a j).keywords[k]? = a.keywords[k]? := by
  refine getElem?_spell_of_not_mem fun v hmem => ?_
  obtain ⟨i, p, -, hp, rfl, -⟩ := mem_drop_zip.1 hmem
  exact hname (name_mem_paramNames hp)

/-- Where no name that is spelled out is given as well, spelling leaves the faults of the keywords
as they are: the names that it adds are no longer filled by position. -/
theorem faults_spell (hfree : ∀ i p, s.params[i]? = some p → j ≤ i → i < a.positional.length →
      p.name ∉ a.keywords) (k : String) (e : BindError) :
    k ∈ (s.spell a j).keywords ∧
        s.keywordFault? (s.spell a j).positional.length k = some e ↔
      k ∈ a.keywords ∧ s.keywordFault? a.positional.length k = some e := by
  have hlength : (s.spell a j).positional.length = min j a.positional.length := List.length_take
  simp only [Std.ExtTreeMap.mem_iff_isSome_getElem?]
  by_cases hname : k ∈ s.paramNames
  · obtain ⟨i, p, hp, rfl⟩ := mem_paramNames.1 hname
    have hfaulty : ∀ given : Nat, s.keywordFault? given p.name = some e ↔
        i < given ∧ .multipleValues s.name p.name = e := by
      intro given
      simp [keywordFault?_of_place hp]
    rw [hfaulty, hfaulty, hlength, Nat.lt_min, getElem?_spell_of_place hp]
    constructor
    · rintro ⟨hk, ⟨hj, hi⟩, he⟩
      rw [if_neg (Nat.not_le.2 hj)] at hk
      exact ⟨hk, hi, he⟩
    · rintro ⟨hk, hi, he⟩
      -- a name that is given as well stands before those that are spelled out
      have hj : i < j := Nat.not_le.1 fun hj =>
        hfree i p hp hj hi (Std.ExtTreeMap.mem_iff_isSome_getElem?.2 hk)
      rw [if_neg (Nat.not_le.2 hj)]
      exact ⟨hk, ⟨hj, hi⟩, he⟩
  · rw [keywordFault?_of_other hname, keywordFault?_of_other hname, getElem?_spell_of_other hname]

/-- A parameter gets the same value from a call and from the one that spells values by name. -/
theorem valueAt?_spell (hp : s.params[i]? = some p) :
    valueAt? (s.spell a j).keywords (s.spell a j).positional i p =
      valueAt? a.keywords a.positional i p := by
  have htake : (s.spell a j).positional[i]? = if i < j then a.positional[i]? else none :=
    List.getElem?_take
  rw [valueAt?, htake, getElem?_spell_of_place hp, valueAt?]
  by_cases hj : j ≤ i
  · rw [if_pos hj, if_neg (Nat.not_lt.2 hj), Option.none_or, Option.or_assoc]
  · rw [if_neg hj, if_pos (Nat.not_le.1 hj)]

/-- Where every value given by position has a parameter, and none of the names of the parameters
from a place on is given as well, the call that spells the values from there on by name looks
alike. -/
theorem alike_spell (hroom : a.positional.length ≤ s.params.length)
    (hfree : ∀ i p, s.params[i]? = some p → j ≤ i → i < a.positional.length →
      p.name ∉ a.keywords) : s.Alike (s.spell a j) a := by
  have hroom' : (s.spell a j).positional.length ≤ s.params.length :=
    (List.length_take_le' j a.positional).trans hroom
  refine
    { room := fun hexceeded => Nat.not_lt.2 hroom' hexceeded.1
      room' := fun hexceeded => Nat.not_lt.2 hroom hexceeded.1
      faults := faults_spell hfree
      values := fun _ _ hp => valueAt?_spell hp
      varargs := ?_
      varkw := fun _ hname => getElem?_spell_of_other hname }
  rw [List.drop_eq_nil_of_le hroom, List.drop_eq_nil_of_le hroom']

/-- Values spelled by the names of their parameters bind as those given by position. For every
place from which on no name of a parameter filled by position is given as well, a call and the one
that gives the values from there on by name bind to the same, or are refused for the same reason,
whether in one go or slot by slot. -/
theorem bind_spell (s : Signature) (a : Arguments) (j : Nat)
    (hroom : a.positional.length ≤ s.params.length)
    (hfree : ∀ i p, s.params[i]? = some p → j ≤ i → i < a.positional.length →
      p.name ∉ a.keywords) :
    (∀ b, s.bind a = .ok b ↔ s.bind (s.spell a j) = .ok b) ∧
      (∀ e, s.bind a = .error e ↔ s.bind (s.spell a j) = .error e) ∧
      s.bindInPlace (s.spell a j) = s.bindInPlace a := by
  have hsame : s.bind (s.spell a j) = s.bind a := (alike_spell hroom hfree).bind_eq
  refine ⟨fun b => by rw [hsame], fun e => by rw [hsame], ?_⟩
  rw [bindInPlace_eq_bind, bindInPlace_eq_bind, hsame]

/-- The second of two values is spelled by name, beside a keyword that is collected. -/
theorem bind_spell_sample :
    Relay.sampleSignature.spell
        ⟨[.str "x", .str "y"], .ofEntries [("fast", .bool true)]⟩ 1 =
      ⟨[.str "x"], .ofEntries [("fast", .bool true), ("target", .str "y")]⟩ ∧
    Relay.sampleSignature.bind
        ⟨[.str "x"], .ofEntries [("fast", .bool true), ("target", .str "y")]⟩ =
      .ok ⟨[("item", .str "x"), ("target", .str "y")], [], .ofEntries [("fast", .bool true)]⟩ := by
  have hspelled : Relay.sampleSignature.spell
      ⟨[.str "x", .str "y"], .ofEntries [("fast", .bool true)]⟩ 1 =
      ⟨[.str "x"], .ofEntries [("fast", .bool true), ("target", .str "y")]⟩ := by
    decide +kernel
  have hbind : Relay.sampleSignature.bind
      ⟨[.str "x", .str "y"], .ofEntries [("fast", .bool true)]⟩ =
      .ok ⟨[("item", .str "x"), ("target", .str "y")], [], .ofEntries [("fast", .bool true)]⟩ := by
    decide +kernel
  refine ⟨hspelled, ?_⟩
  rw [← hspelled]
  refine ((bind_spell Relay.sampleSignature
    ⟨[.str "x", .str "y"], .ofEntries [("fast", .bool true)]⟩ 1 (by decide) ?_).1 _).1 hbind
  intro i p hp _ _
  have hplaces : p ∈ Relay.sampleSignature.params := List.mem_of_getElem? hp
  have hnames : ∀ q ∈ Relay.sampleSignature.params, q.name ∉ ["fast"] := by decide
  exact fun hk => hnames p hplaces (NameMap.mem_ofEntries.1 hk)

end Delegation.Signature
