import Delegation.Proofs.Convention
import Delegation.Proofs.Entries
/-!
# Binding slot by slot

Arguments can be bound in place. Every parameter has a slot: the values given
by position fill the first ones, then the keywords are accepted one after the
other in the order of their names, each into the slot of the parameter that it
names, and at last every slot that is still empty takes the default of its
parameter. A slot that is filled refuses a keyword. What the slots hold depends
on which keywords were accepted and not on how they got there, and a keyword
finds a filled slot only if a value given by position fills it. So this binds
what `Signature.bind` binds and refuses what it refuses, for the same reason.
-/

namespace Delegation.Signature

variable {s : Signature} {function k : String} {v : Value} {e : BindError} {given i : Nat}
  {vs : List Value} {m : NameMap Value}

/-- Arguments on their way to the parameters. -/
structure Slots where
  /-- What fills each parameter by now. -/
  values : List (Option Value)
  /-- The keywords so far that name no parameter. -/
  collected : NameMap Value

/-- The slots that the values given by position fill. -/
def Slots.start (s : Signature) (vs : List Value) : Slots :=
  ⟨s.params.mapIdx fun i _ => vs[i]?, ∅⟩

/-- A keyword fills the slot of the parameter that it names, or it is collected. -/
def Slots.accept (s : Signature) (slots : Slots) (entry : String × Value) :
    Except BindError Slots :=
  match s.paramNames.idxOf? entry.1 with
  | some i =>
    if (slots.values[i]?.join).isSome then .error (.multipleValues s.name entry.1)
    else .ok { slots with values := slots.values.set i (some entry.2) }
  | none =>
    if s.varkw.isSome then
      .ok { slots with collected := slots.collected.insert entry.1 entry.2 }
    else .error (.unexpectedKeyword s.name entry.1)

/-- Every parameter with what fills its slot, else with its default. -/
def settle (function : String) :
    List Parameter → List (Option Value) → Except BindError (List (String × Value))
  | p :: ps, slot :: slots =>
    match slot.or p.default with
    | some v => (settle function ps slots).map ((p.name, v) :: ·)
    | none => .error (.missingArgument function p.name)
  | _, _ => .ok []

/-- Arguments bound slot by slot. -/
def bindInPlace (s : Signature) (a : Arguments) : Except BindError Binding :=
  let given := a.positional.length
  if s.params.length < given ∧ s.varargs = none then
    .error (.tooManyPositional s.name s.params.length given)
  else do
    let slots ← a.keywords.toList.foldlM (Slots.accept s) (.start s a.positional)
    let params ← settle s.name s.params slots.values
    return {
      params
      varargs := a.positional.drop s.params.length
      varkw := slots.collected }

/-- What the slots hold after some keywords were accepted: a parameter has the value given by
position at its place, else that of its keyword, and the keywords that name none are collected. -/
structure Slots.Holds (s : Signature) (vs : List Value) (m : NameMap Value) (slots : Slots) :
    Prop where
  /-- Each parameter has its slot. -/
  values : ∀ i : Nat, slots.values[i]? = s.params[i]?.map fun p => vs[i]?.or m[p.name]?
  /-- The other keywords are collected. -/
  collected : slots.collected = m.filter fun k _ => k ∉ s.paramNames

/-- At first no keyword was accepted. -/
theorem Slots.holds_start (s : Signature) (vs : List Value) :
    Slots.Holds s vs ∅ (.start s vs) where
  values i := by simp [Slots.start]
  collected := by
    refine Std.ExtTreeMap.ext_getElem? fun k => ?_
    simp [Slots.start]

/-- A name has its place among the parameters exactly if the parameter there has the name. -/
theorem idxOf?_paramNames : s.paramNames.idxOf? k = some i ↔
    ∃ p, s.params[i]? = some p ∧ p.name = k := by
  have hplace : (∃ p, s.params[i]? = some p ∧ p.name = k) ↔ s.paramNames[i]? = some k := by
    rw [paramNames, List.getElem?_map, Option.map_eq_some_iff]
  rw [hplace, List.idxOf?_eq_some_iff, List.getElem?_eq_some_iff]
  constructor
  · rintro ⟨hi, hk, -⟩
    exact ⟨hi, hk⟩
  · rintro ⟨hi, hk⟩
    refine ⟨hi, hk, fun j hj hjk => ?_⟩
    have hlt : j < s.paramNames.length := Nat.lt_trans hj hi
    have hsame : s.paramNames[j]? = s.paramNames[i]? := by
      rw [List.getElem?_eq_getElem hlt, List.getElem?_eq_getElem hi, hjk, hk]
    exact Nat.ne_of_lt hj ((List.getElem?_inj hlt s.paramNames_nodup).1 hsame)

/-- Two places with one name are the same. -/
theorem place_unique {j : Nat} {p q : Parameter} (hp : s.params[i]? = some p)
    (hq : s.params[j]? = some q) (hname : p.name = q.name) : i = j := by
  have hi : s.paramNames.idxOf? q.name = some i := idxOf?_paramNames.2 ⟨p, hp, hname⟩
  have hj : s.paramNames.idxOf? q.name = some j := idxOf?_paramNames.2 ⟨q, hq, rfl⟩
  exact Option.some.inj (hi.symm.trans hj)

/-- A keyword that names a parameter has a fault exactly if a value given by position fills it. -/
theorem keywordFault?_of_place {p : Parameter} (hp : s.params[i]? = some p) :
    s.keywordFault? given p.name =
      if i < given then some (.multipleValues s.name p.name) else none := by
  have hfilled : p.name ∈ s.filledNames given ↔ i < given := by
    rw [mem_filledNames]
    constructor
    · rintro ⟨j, q, hj, hq, hname⟩
      rwa [← place_unique hq hp hname]
    · intro hi
      exact ⟨i, p, hi, hp, rfl⟩
  simp only [keywordFault?, hfilled, name_mem_paramNames hp, if_true]

/-- A keyword that names no parameter has a fault exactly if keywords are not collected. -/
theorem keywordFault?_of_other (hname : k ∉ s.paramNames) : s.keywordFault? given k =
    if s.varkw.isSome then none else some (.unexpectedKeyword s.name k) := by
  have hfilled : k ∉ s.filledNames given := fun hk => hname (List.mem_of_mem_take hk)
  simp only [keywordFault?, hfilled, hname, if_false]

namespace Slots

variable {slots : Slots}

/-- A keyword that names a parameter is accepted exactly if its slot is empty. -/
theorem accept_of_place {p : Parameter} (hp : s.params[i]? = some p) :
    accept s slots (p.name, v) =
      if (slots.values[i]?.join).isSome then .error (.multipleValues s.name p.name)
      else .ok { slots with values := slots.values.set i (some v) } := by
  rw [accept, idxOf?_paramNames.2 ⟨p, hp, rfl⟩]

/-- A keyword that names no parameter is accepted exactly if keywords are collected. -/
theorem accept_of_other (hname : k ∉ s.paramNames) : accept s slots (k, v) =
    if s.varkw.isSome then .ok { slots with collected := slots.collected.insert k v }
    else .error (.unexpectedKeyword s.name k) := by
  rw [accept, List.idxOf?_eq_none_iff.2 hname]

/-- Before its keyword comes, a slot is filled exactly if a value given by position fills it. -/
theorem Holds.isSome_slot (h : Holds s vs m slots) {p : Parameter} (hp : s.params[i]? = some p)
    (hk : p.name ∉ m) : (slots.values[i]?.join).isSome = true ↔ i < vs.length := by
  rw [h.values, hp, Option.map_some, Option.join_some, Std.ExtTreeMap.getElem?_eq_none hk,
    Option.or_none, isSome_getElem?]

/-- A keyword fills the slot of its parameter. -/
theorem Holds.fill (h : Holds s vs m slots) {p : Parameter} (hp : s.params[i]? = some p)
    (hi : vs.length ≤ i) (v : Value) :
    Holds s vs (m.insert p.name v) { slots with values := slots.values.set i (some v) } where
  values j := by
    have hslot : i < slots.values.length := by
      have hsome : (slots.values[i]?).isSome = true := by
        rw [h.values, hp]
        rfl
      rwa [isSome_getElem?] at hsome
    rw [List.getElem?_set]
    by_cases hij : i = j
    · subst hij
      rw [if_pos rfl, if_pos hslot, hp, Option.map_some, List.getElem?_eq_none hi,
        Option.none_or, Std.ExtTreeMap.getElem?_insert_self]
    · rw [if_neg hij, h.values]
      cases hq : s.params[j]? with
      | none => rfl
      | some q =>
        have hne : p.name ≠ q.name := fun hname => hij (place_unique hp hq hname)
        rw [Option.map_some, Option.map_some, Entries.getElem?_insert, if_neg hne]
  collected := by
    rw [h.collected]
    refine Std.ExtTreeMap.ext_getElem? fun k => ?_
    rw [Std.ExtTreeMap.getElem?_filter', Std.ExtTreeMap.getElem?_filter',
      Entries.getElem?_insert]
    by_cases hk : p.name = k
    · subst hk
      cases m[p.name]? <;> simp [name_mem_paramNames hp]
    · rw [if_neg hk]

/-- A keyword that names no parameter is added to those collected. -/
theorem Holds.collect (h : Holds s vs m slots) (hname : k ∉ s.paramNames) (v : Value) :
    Holds s vs (m.insert k v) { slots with collected := slots.collected.insert k v } where
  values i := by
    rw [h.values]
    cases hp : s.params[i]? with
    | none => rfl
    | some p =>
      have hne : k ≠ p.name := fun hk => hname (hk ▸ name_mem_paramNames hp)
      rw [Option.map_some, Option.map_some, Entries.getElem?_insert, if_neg hne]
  collected := by
    simp only [h.collected]
    refine Std.ExtTreeMap.ext_getElem? fun k' => ?_
    rw [Entries.getElem?_insert, Std.ExtTreeMap.getElem?_filter',
      Std.ExtTreeMap.getElem?_filter', Entries.getElem?_insert]
    by_cases hk : k = k'
    · subst hk
      rw [if_pos rfl, if_pos rfl, Option.filter_some_pos (by simpa using hname)]
    · rw [if_neg hk, if_neg hk]

/-- A keyword that comes for the first time is refused for the fault that it has, and accepted if it
has none. -/
theorem Holds.accept (h : Holds s vs m slots) (hk : k ∉ m) (v : Value) :
    (∀ e, s.keywordFault? vs.length k = some e → accept s slots (k, v) = .error e) ∧
      (s.keywordFault? vs.length k = none →
        ∃ slots', accept s slots (k, v) = .ok slots' ∧ Holds s vs (m.insert k v) slots') := by
  by_cases hname : k ∈ s.paramNames
  · obtain ⟨i, p, hp, rfl⟩ := mem_paramNames.1 hname
    rw [keywordFault?_of_place hp, accept_of_place hp]
    simp only [h.isSome_slot hp hk]
    by_cases hi : i < vs.length
    · simp [hi]
    · simp [hi, h.fill hp (Nat.not_lt.1 hi) v]
  · rw [keywordFault?_of_other hname, accept_of_other hname]
    cases s.varkw with
    | none => simp
    | some w => simp [h.collect hname v]

/-- Keywords that come one after the other are refused for the first fault that one of them has,
and accepted if none has one. -/
theorem Holds.foldlM_accept (h : Holds s vs m slots) (entries : List (String × Value))
    (hnew : ∀ entry ∈ entries, entry.1 ∉ m) (hdistinct : (entries.map (·.1)).Nodup) :
    (∀ e, (entries.map (·.1)).findSome? (s.keywordFault? vs.length) = some e →
      entries.foldlM (Slots.accept s) slots = .error e) ∧
    ((entries.map (·.1)).findSome? (s.keywordFault? vs.length) = none →
      ∃ slots', entries.foldlM (Slots.accept s) slots = .ok slots' ∧
        Holds s vs (m.insertMany entries) slots') := by
  induction entries generalizing m slots with
  | nil =>
    refine ⟨fun e he => ?_, fun _ => ⟨slots, rfl, ?_⟩⟩
    · cases he
    · rwa [Std.ExtTreeMap.insertMany_nil]
  | cons entry entries ih =>
    obtain ⟨k, v⟩ := entry
    obtain ⟨hfirst, hothers⟩ := List.nodup_cons.1 hdistinct
    obtain ⟨hrefused, haccepted⟩ := h.accept (hnew _ List.mem_cons_self) v
    rw [List.map_cons, List.findSome?_cons, List.foldlM_cons, Std.ExtTreeMap.insertMany_cons]
    cases hfault : s.keywordFault? vs.length k with
    | some e =>
      rw [hrefused e hfault]
      refine ⟨fun e' he => ?_, fun hnone => ?_⟩
      · cases he
        rfl
      · cases hnone
    | none =>
      obtain ⟨slots', haccept, hholds⟩ := haccepted hfault
      rw [haccept]
      refine ih hholds (fun entry hentry hmem => ?_) hothers
      rcases Std.ExtTreeMap.mem_insert.1 hmem with heq | hold
      · obtain rfl : k = entry.1 := Std.LawfulEqCmp.eq_of_compare heq
        exact hfirst (List.mem_map.2 ⟨entry, hentry, rfl⟩)
      · exact hnew entry (List.mem_cons_of_mem _ hentry) hold

end Slots

/-- Where the slots hold what was given by position and by keyword, settling them fills the
parameters. -/
theorem settle_eq_fill {ps : List Parameter} {slots : List (Option Value)}
    (h : ∀ i : Nat, slots[i]? = ps[i]?.map fun p => vs[i]?.or m[p.name]?) :
    settle function ps slots = fill function m ps vs := by
  induction ps generalizing vs slots with
  | nil =>
    unfold settle
    rfl
  | cons p ps ih =>
    have hhead := h 0
    rw [List.getElem?_cons_zero, Option.map_some] at hhead
    obtain ⟨rest, rfl⟩ : ∃ rest, slots = (vs[0]?.or m[p.name]?) :: rest := by
      cases slots with
      | nil => cases hhead
      | cons slot rest => exact ⟨rest, by rw [Option.some.inj hhead]⟩
    have hrest : settle function ps rest = fill function m ps vs.tail :=
      ih fun i => by
        have hi := h (i + 1)
        rwa [List.getElem?_cons_succ, List.getElem?_cons_succ, ← List.getElem?_tail] at hi
    rw [settle, hrest, Option.or_assoc]
    cases vs with
    | cons v vs => rfl
    | nil => rfl

/-- A map is what its entries make up. -/
theorem insertMany_toList (m : NameMap Value) : (∅ : NameMap Value).insertMany m.toList = m := by
  refine Std.ExtTreeMap.ext_getElem? fun k => ?_
  cases hk : m[k]? with
  | some v =>
    exact Std.ExtTreeMap.getElem?_insertMany_list_of_mem Std.ReflCmp.compare_self
      Std.ExtTreeMap.distinct_keys_toList (Std.ExtTreeMap.mem_toList_iff_getElem?_eq_some.2 hk)
  | none =>
    have hkeys : (m.toList.map Prod.fst).contains k = false := by
      rw [Std.ExtTreeMap.map_fst_toList_eq_keys, ← Bool.not_eq_true, List.contains_iff_mem,
        Std.ExtTreeMap.mem_keys]
      exact (getElem?_eq_none_iff _ _).1 hk
    rw [Std.ExtTreeMap.getElem?_insertMany_list_of_contains_eq_false hkeys,
      Std.ExtTreeMap.getElem?_empty]

/-- Binding slot by slot binds and refuses as binding does. -/
theorem bindInPlace_eq_bind (s : Signature) (a : Arguments) : s.bindInPlace a = s.bind a := by
  have hdistinct : (a.keywords.toList.map (·.1)).Nodup := by
    rw [Std.ExtTreeMap.map_fst_toList_eq_keys]
    exact Std.ExtTreeMap.nodup_keys
  obtain ⟨hrefused, haccepted⟩ := (Slots.holds_start s a.positional).foldlM_accept
    a.keywords.toList (fun _ _ => Std.ExtTreeMap.not_mem_empty) hdistinct
  rw [Std.ExtTreeMap.map_fst_toList_eq_keys] at hrefused haccepted
  unfold bindInPlace bind
  simp only
  split
  · rfl
  · cases hfault : a.keywords.keys.findSome? (s.keywordFault? a.positional.length) with
    | some fault =>
      rw [hrefused fault hfault]
      rfl
    | none =>
      obtain ⟨slots, hslots, hholds⟩ := haccepted hfault
      rw [insertMany_toList] at hholds
      have hsettle : settle s.name s.params slots.values =
          fill s.name a.keywords s.params a.positional := settle_eq_fill hholds.values
      rw [hslots]
      simp only [Bind.bind, Except.bind, hsettle, hholds.collected]
      cases fill s.name a.keywords s.params a.positional <;> rfl

end Delegation.Signature
