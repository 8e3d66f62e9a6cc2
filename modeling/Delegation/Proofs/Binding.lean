import Mathlib.Control.Monad.Basic
import Delegation.Signature.Bind
/-!
# What a signature accepts

The two facts that every signature carries, distinct parameter names and
defaults at the end, and what they say of binding. `bind_eq_ok_iff` opens a
successful binding into the count of values given by position, the keywords,
the filled parameters and what was collected; each of these parts can then be
established on its own.
-/

namespace Delegation

/-- An entry is found by its name, when no two have one name. -/
theorem find?_of_mem_nodup {α : Type} {entries : List (String × α)}
    (hn : (entries.map (·.1)).Nodup) {e : String × α} (he : e ∈ entries) :
    entries.find? (·.1 == e.1) = some e := by
  induction entries with
  | nil => cases he
  | cons x entries ih =>
    rw [List.map_cons, List.nodup_cons] at hn
    obtain ⟨hx, hentries⟩ := hn
    rcases List.mem_cons.1 he with rfl | he
    · simp
    · have hne : x.1 ≠ e.1 := by
        intro h
        rw [h] at hx
        exact hx (List.mem_map_of_mem he)
      rw [List.find?_cons_of_neg (by simpa using hne)]
      exact ih hentries he

namespace Signature

/-- A parameter list has no fault exactly if its names are new and distinct and no parameter
without a default follows one with a default. -/
theorem paramFault?_eq_none_iff {seen : List String} {defaulted : Bool} {ps : List Parameter} :
    paramFault? seen defaulted ps = none ↔
      (∀ p ∈ ps, p.name ∉ seen ∧ (defaulted = true → p.default.isSome = true)) ∧
      ps.Pairwise fun p q =>
        p.name ≠ q.name ∧ (p.default.isSome = true → q.default.isSome = true) := by
  induction ps generalizing seen defaulted with
  | nil => simp [paramFault?]
  | cons p ps ih =>
    rw [paramFault?, List.pairwise_cons]
    by_cases hd : (defaulted && p.default.isNone) = true
    · have hp : defaulted = true ∧ p.default = none := by simpa using hd
      rw [if_pos hd]
      constructor
      · intro h
        cases h
      · intro h
        have := (h.1 p List.mem_cons_self).2 hp.1
        simp [hp.2] at this
    · have hp : defaulted = true → p.default.isSome = true := by
        intro h
        cases hv : p.default <;> simp_all
      rw [if_neg hd]
      by_cases hs : p.name ∈ seen
      · rw [if_pos hs]
        constructor
        · intro h
          cases h
        · intro h
          exact absurd hs (h.1 p List.mem_cons_self).1
      · rw [if_neg hs, ih]
        constructor
        · rintro ⟨hrest, hpair⟩
          refine ⟨?_, ?_, hpair⟩
          · intro q hq
            rcases List.mem_cons.1 hq with rfl | hq
            · exact ⟨hs, hp⟩
            · have := hrest q hq
              exact ⟨fun h => this.1 (List.mem_cons_of_mem _ h), fun h => this.2 (by simp [h])⟩
          · intro q hq
            have := hrest q hq
            exact ⟨fun h => this.1 (by simp [h]), fun h => this.2 (by simp [h])⟩
        · rintro ⟨hall, hhead, hpair⟩
          refine ⟨fun q hq => ⟨?_, ?_⟩, hpair⟩
          · intro h
            rcases List.mem_cons.1 h with h | h
            · exact (hhead q hq).1 h.symm
            · exact (hall q (List.mem_cons_of_mem _ hq)).1 h
          · intro h
            rcases Bool.or_eq_true_iff.1 h with h | h
            · exact (hall q (List.mem_cons_of_mem _ hq)).2 h
            · exact (hhead q hq).2 h

/-- The parameters of a signature are sound as a list. -/
theorem params_pairwise (s : Signature) : s.params.Pairwise fun p q =>
    p.name ≠ q.name ∧ (p.default.isSome = true → q.default.isSome = true) := by
  have h : paramFault? [] false s.params = none := by
    have := s.sound
    rw [fault?, Option.or_eq_none_iff] at this
    exact this.1
  exact (paramFault?_eq_none_iff.1 h).2

/-- No two parameters have one name. -/
theorem paramNames_nodup (s : Signature) : s.paramNames.Nodup :=
  List.pairwise_map.2 (s.params_pairwise.imp And.left)

/-- The parameters from the first one with a default on. -/
def defaulted (s : Signature) : List Parameter := s.params.dropWhile (·.default.isNone)

/-- The required parameters come first and the others after them. -/
theorem required_append_defaulted (s : Signature) : s.required ++ s.defaulted = s.params :=
  List.takeWhile_append_dropWhile

/-- A required parameter has no default. -/
theorem default_of_mem_required {s : Signature} {p : Parameter} (h : p ∈ s.required) :
    p.default = none := by
  have := List.all_takeWhile (l := s.params) (p := fun q => q.default.isNone)
  rw [List.all_eq_true] at this
  simpa using this p h

/-- From the first default on every parameter has one. -/
theorem default_of_mem_defaulted {s : Signature} {p : Parameter} (h : p ∈ s.defaulted) :
    p.default.isSome = true := by
  have hhead := List.head?_dropWhile_not (fun q : Parameter => q.default.isNone) s.params
  have hpair := (s.params_pairwise.imp And.right).sublist
    (List.dropWhile_sublist fun q : Parameter => q.default.isNone)
  rw [defaulted] at h
  cases hd : s.params.dropWhile (fun q => q.default.isNone) with
  | nil => simp [hd] at h
  | cons q qs =>
    rw [hd] at h hpair hhead
    have hq : q.default.isSome = true := by simpa using hhead
    rcases List.mem_cons.1 h with rfl | h
    · exact hq
    · exact (List.pairwise_cons.1 hpair).1 p h hq

/-- The required parameters are those without a default, wherever they stand. -/
theorem required_eq_filter (s : Signature) :
    s.required = s.params.filter (·.default.isNone) := by
  have hrequired : s.required.filter (·.default.isNone) = s.required :=
    List.filter_eq_self.2 fun p hp => by simp [default_of_mem_required hp]
  have hdefaulted : s.defaulted.filter (·.default.isNone) = [] := by
    rw [List.filter_eq_nil_iff]
    intro p hp
    have hdefault := default_of_mem_defaulted hp
    simp [Option.isSome_iff_ne_none.1 hdefault]
  rw [← s.required_append_defaulted, List.filter_append, hrequired, hdefaulted, List.append_nil]

/-- A parameter that comes before one without a default has none either. -/
theorem default_of_lt {s : Signature} {i j : Nat} {p q : Parameter} (hij : i < j)
    (hp : s.params[i]? = some p) (hq : s.params[j]? = some q) (hdefault : q.default = none) :
    p.default = none := by
  obtain ⟨hi, rfl⟩ := List.getElem?_eq_some_iff.1 hp
  obtain ⟨hj, rfl⟩ := List.getElem?_eq_some_iff.1 hq
  have hpair := (List.pairwise_iff_getElem.1 s.params_pairwise i j hi hj hij).2
  by_contra hsome
  have hdefaulted := hpair (Option.isSome_iff_ne_none.2 hsome)
  simp [hdefault] at hdefaulted

/-- A keyword has no fault exactly if it names no parameter filled by position, and names one of
the others or is collected. -/
theorem keywordFault?_eq_none_iff {s : Signature} {given : Nat} {k : String} :
    s.keywordFault? given k = none ↔
      k ∉ s.filledNames given ∧ (k ∈ s.paramNames ∨ s.varkw.isSome = true) := by
  unfold keywordFault?
  by_cases hf : k ∈ s.filledNames given
  · simp [hf]
  · by_cases hp : k ∈ s.paramNames
    · simp [hf, hp]
    · cases hs : s.varkw <;> simp [hf, hp]

/-- A binding of arguments to a signature, part by part. -/
structure Binds (s : Signature) (a : Arguments) (b : Binding) : Prop where
  /-- The values given by position have a parameter each, or what exceeds is collected. -/
  room : a.positional.length ≤ s.params.length ∨ s.varargs ≠ none
  /-- No keyword has a fault. -/
  keywords : ∀ k ∈ a.keywords, s.keywordFault? a.positional.length k = none
  /-- Every parameter is filled. -/
  params : fill s.name a.keywords s.params a.positional = .ok b.params
  /-- What exceeds the parameters by position. -/
  varargs : b.varargs = a.positional.drop s.params.length
  /-- What names no parameter. -/
  varkw : b.varkw = a.keywords.filter fun k _ => k ∉ s.paramNames

/-- Binding succeeds with exactly the bindings that fit part by part. -/
theorem bind_eq_ok_iff {s : Signature} {a : Arguments} {b : Binding} :
    s.bind a = .ok b ↔ s.Binds a b := by
  have hfault : a.keywords.keys.findSome? (s.keywordFault? a.positional.length) = none ↔
      ∀ k ∈ a.keywords, s.keywordFault? a.positional.length k = none := by
    simp only [List.findSome?_eq_none_iff, Std.ExtTreeMap.mem_keys]
  unfold bind
  simp only
  by_cases hroom : s.params.length < a.positional.length ∧ s.varargs = none
  · rw [if_pos hroom]
    constructor
    · intro h
      cases h
    · intro h
      rcases h.room with hle | hne
      · omega
      · exact absurd hroom.2 hne
  · rw [if_neg hroom]
    have hroom' : a.positional.length ≤ s.params.length ∨ s.varargs ≠ none := by
      by_cases hv : s.varargs = none
      · exact .inl (Nat.not_lt.1 fun hlt => hroom ⟨hlt, hv⟩)
      · exact .inr hv
    cases hk : a.keywords.keys.findSome? (s.keywordFault? a.positional.length) with
    | some fault =>
      constructor
      · intro h
        cases h
      · intro h
        rw [hfault.2 h.keywords] at hk
        cases hk
    | none =>
      cases hf : fill s.name a.keywords s.params a.positional with
      | error e =>
        constructor
        · intro h
          cases h
        · intro h
          rw [h.params] at hf
          cases hf
      | ok params =>
        constructor
        · intro h
          cases h
          exact ⟨hroom', hfault.1 hk, hf, rfl, rfl⟩
        · intro h
          obtain ⟨ps, vs, kw⟩ := b
          have hp : params = ps := by simpa [hf] using h.params
          have hv : vs = _ := h.varargs
          have hw : kw = _ := h.varkw
          rw [hp, hv, hw]
          rfl

/-- A keyword among those collected names no parameter and was given. -/
theorem Binds.mem_varkw {s : Signature} {a : Arguments} {b : Binding} (h : s.Binds a b)
    {k : String} (hk : k ∈ b.varkw) : k ∉ s.paramNames ∧ k ∈ a.keywords := by
  rw [h.varkw, Std.ExtTreeMap.mem_filter] at hk
  obtain ⟨hgiven, hname⟩ := hk
  exact ⟨by simpa using hname, hgiven⟩

/-- Without a parameter for them no values are collected by position. -/
theorem Binds.varargs_eq_nil {s : Signature} {a : Arguments} {b : Binding} (h : s.Binds a b)
    (hs : s.varargs = none) : b.varargs = [] := by
  rw [h.varargs]
  rcases h.room with hle | hne
  · exact List.drop_eq_nil_of_le hle
  · exact absurd hs hne

/-- Keywords are collected only if there is a parameter for them. -/
theorem Binds.varkw_isSome {s : Signature} {a : Arguments} {b : Binding} (h : s.Binds a b)
    {k : String} (hk : k ∈ b.varkw) : s.varkw.isSome = true := by
  obtain ⟨hname, hgiven⟩ := h.mem_varkw hk
  exact (keywordFault?_eq_none_iff.1 (h.keywords k hgiven)).2.resolve_left hname

/-- Without a parameter for them no keywords are collected. -/
theorem Binds.varkw_eq_empty {s : Signature} {a : Arguments} {b : Binding} (h : s.Binds a b)
    (hs : s.varkw = none) : b.varkw = ∅ := by
  rw [Std.ExtTreeMap.eq_empty_iff_forall_not_mem]
  intro k hk
  have := h.varkw_isSome hk
  simp [hs] at this

/-- Values that fill a front part of the parameters one by one leave the rest to be filled by what
is left. -/
theorem fill_append {function : String} {keywords : NameMap Value} {ps qs : List Parameter}
    {front : List (String × Value)} {vs : List Value} (hf : front.map (·.1) = ps.map (·.name)) :
    fill function keywords (ps ++ qs) (front.map (·.2) ++ vs) =
      (fill function keywords qs vs).map (front ++ ·) := by
  induction front generalizing ps with
  | nil =>
    obtain rfl : ps = [] := List.map_eq_nil_iff.1 hf.symm
    cases h : fill function keywords qs vs <;> simp [h, Except.map]
  | cons e front ih =>
    cases ps with
    | nil => simp at hf
    | cons p ps =>
      obtain ⟨hname, hrest⟩ : e.1 = p.name ∧ front.map (·.1) = ps.map (·.name) := by
        simpa using hf
      rw [List.cons_append, List.map_cons, List.cons_append, fill, ih hrest]
      cases h : fill function keywords qs vs with
      | error e => rfl
      | ok rest => simp [Except.map, ← hname]

/-- Parameters that all have a keyword are filled by the keywords. -/
theorem fill_of_keywords {function : String} {keywords : NameMap Value} {ps : List Parameter}
    {bound : List (String × Value)} (hb : bound.map (·.1) = ps.map (·.name))
    (hk : ∀ e ∈ bound, keywords[e.1]? = some e.2) :
    fill function keywords ps [] = .ok bound := by
  induction bound generalizing ps with
  | nil =>
    obtain rfl : ps = [] := List.map_eq_nil_iff.1 hb.symm
    rfl
  | cons e bound ih =>
    cases ps with
    | nil => simp at hb
    | cons p ps =>
      obtain ⟨hname, hrest⟩ : e.1 = p.name ∧ bound.map (·.1) = ps.map (·.name) := by
        simpa using hb
      have hv : keywords[p.name]? = some e.2 := by
        rw [← hname]
        exact hk e List.mem_cons_self
      rw [fill, hv, Option.some_or, ih hrest fun e' he => hk e' (List.mem_cons_of_mem _ he)]
      simp [Except.map, ← hname]

end Signature

end Delegation
