import Delegation.Proofs.Binding
/-!
# Which parameter lists are signatures

Two rules are checked along a parameter list: defaults stand at the end, and no
name is used twice. The walk carries the names so far and whether one of their
parameters has a default, so at every place it finds exactly what the parameters
before break there, and it stops at the first one that breaks a rule. After it
come the collecting parameters, which share no name with another parameter.
`Refusal` says for every fault when it is the one that is reported.
-/

namespace Delegation.Signature

variable {ps before : List Parameter} {p : Parameter} {fault : SignatureFault}
  {seen : List String} {defaulted : Bool} {varargs varkw sink : Option String}

/-- A parameter has no default although one before it has. -/
def Misordered (before : List Parameter) (p : Parameter) : Prop :=
  p.default = none ∧ ∃ q ∈ before, q.default ≠ none

/-- A parameter has the name of one before it. -/
def Repeated (before : List Parameter) (p : Parameter) : Prop :=
  ∃ q ∈ before, q.name = p.name

instance (before : List Parameter) (p : Parameter) : Decidable (Misordered before p) :=
  inferInstanceAs (Decidable (_ ∧ _))

instance (before : List Parameter) (p : Parameter) : Decidable (Repeated before p) :=
  inferInstanceAs (Decidable (∃ q ∈ before, q.name = p.name))

/-- A parameter list keeps both rules. -/
structure Sound (ps : List Parameter) : Prop where
  /-- No two parameters have one name. -/
  distinct : (ps.map (·.name)).Nodup
  /-- No parameter without a default follows one with a default. -/
  trailing : ps.Pairwise fun p q => p.default ≠ none → q.default ≠ none

/-- The first parameter that breaks a rule. -/
structure FirstBreach (ps : List Parameter) (i : Nat) (p : Parameter) : Prop where
  /-- It stands at the place. -/
  place : ps[i]? = some p
  /-- It breaks one of the rules. -/
  breach : Misordered (ps.take i) p ∨ Repeated (ps.take i) p
  /-- No parameter before it breaks one. -/
  first : ∀ j q, j < i → ps[j]? = some q →
    ¬ Misordered (ps.take j) q ∧ ¬ Repeated (ps.take j) q

/-- A collecting parameter has a name that no parameter of the list has. -/
def SinkFree (ps : List Parameter) (sink : Option String) : Prop :=
  ∀ name, sink = some name → name ∉ ps.map (·.name)

/-- The fault that is reported of a signature's parts. -/
inductive Refusal (ps : List Parameter) (varargs varkw : Option String) :
    SignatureFault → Prop where
  /-- The first parameter that breaks a rule has no default although one before it has. -/
  | misordered {i : Nat} {p : Parameter} (first : FirstBreach ps i p)
      (misordered : Misordered (ps.take i) p) :
      Refusal ps varargs varkw (.requiredAfterDefault p.name)
  /-- The first parameter that breaks a rule only has the name of one before it. -/
  | repeated {i : Nat} {p : Parameter} (first : FirstBreach ps i p)
      (ordered : ¬ Misordered (ps.take i) p) : Refusal ps varargs varkw (.duplicate p.name)
  /-- The parameters keep the rules, and what collects values by position has a name of theirs. -/
  | varargs {name : String} (sound : Sound ps) (given : varargs = some name)
      (taken : name ∈ ps.map (·.name)) : Refusal ps varargs varkw (.duplicate name)
  /-- That has a name of its own, but what collects keywords has not. -/
  | varkw {name : String} (sound : Sound ps) (free : SinkFree ps varargs)
      (given : varkw = some name) (taken : name ∈ ps.map (·.name)) :
      Refusal ps varargs varkw (.duplicate name)
  /-- Both have a name that no parameter has, but they have the same. -/
  | shared {name : String} (sound : Sound ps) (free : name ∉ ps.map (·.name))
      (given : varargs = some name) (same : varkw = some name) :
      Refusal ps varargs varkw .sharedSinkName

/-- What is reported of a parameter after those before it. -/
def breach? (before : List Parameter) (p : Parameter) : Option SignatureFault :=
  if Misordered before p then some (.requiredAfterDefault p.name)
  else if Repeated before p then some (.duplicate p.name)
  else none

/-- Nothing is reported of a parameter that breaks no rule. -/
theorem breach?_eq_none :
    breach? before p = none ↔ ¬ Misordered before p ∧ ¬ Repeated before p := by
  unfold breach?
  by_cases hm : Misordered before p
  · simp [hm]
  · by_cases hr : Repeated before p <;> simp [hm, hr]

/-- Its place is reported before its name. -/
theorem breach?_eq_some : breach? before p = some fault ↔
    Misordered before p ∧ fault = .requiredAfterDefault p.name ∨
      ¬ Misordered before p ∧ Repeated before p ∧ fault = .duplicate p.name := by
  unfold breach?
  by_cases hm : Misordered before p
  · simp [hm, eq_comm]
  · by_cases hr : Repeated before p <;> simp [hm, hr, eq_comm]

/-- What the walk along a parameter list carries. -/
structure Carries (before : List Parameter) (seen : List String) (defaulted : Bool) : Prop where
  /-- The names are those of the parameters so far. -/
  seen : ∀ name, name ∈ seen ↔ ∃ q ∈ before, q.name = name
  /-- The flag tells whether one of them has a default. -/
  defaulted : defaulted = true ↔ ∃ q ∈ before, q.default ≠ none

/-- At first there are no parameters. -/
theorem carries_start : Carries [] [] false where
  seen name := by simp
  defaulted := by simp

/-- The walk goes on past a parameter. -/
theorem Carries.concat (h : Carries before seen defaulted) (p : Parameter) :
    Carries (before ++ [p]) (p.name :: seen) (defaulted || p.default.isSome) where
  seen name := by
    rw [List.mem_cons, h.seen]
    simp [or_and_right, exists_or, or_comm, eq_comm]
  defaulted := by
    rw [Bool.or_eq_true, h.defaulted]
    simp [or_and_right, exists_or, Option.isSome_iff_ne_none]

/-- At a parameter the walk reports what the parameters before it break there, and otherwise goes
on. -/
theorem Carries.paramFault?_cons (h : Carries before seen defaulted) :
    paramFault? seen defaulted (p :: ps) = (breach? before p).or
      (paramFault? (p.name :: seen) (defaulted || p.default.isSome) ps) := by
  have hmisordered : (defaulted && p.default.isNone) = true ↔ Misordered before p := by
    rw [Bool.and_eq_true, h.defaulted, Option.isNone_iff_eq_none, and_comm]
    rfl
  have hrepeated : p.name ∈ seen ↔ Repeated before p := h.seen p.name
  rw [paramFault?, breach?]
  simp only [hmisordered, hrepeated]
  by_cases hm : Misordered before p
  · rw [if_pos hm, if_pos hm, Option.some_or]
  · by_cases hr : Repeated before p
    · rw [if_neg hm, if_neg hm, if_pos hr, if_pos hr, Option.some_or]
    · rw [if_neg hm, if_neg hm, if_neg hr, if_neg hr, Option.none_or]

/-- The walk reports the first parameter of which something is to be reported. -/
theorem Carries.paramFault?_eq_some_iff (h : Carries before seen defaulted) :
    paramFault? seen defaulted ps = some fault ↔
      ∃ i p, ps[i]? = some p ∧ breach? (before ++ ps.take i) p = some fault ∧
        ∀ j q, j < i → ps[j]? = some q → breach? (before ++ ps.take j) q = none := by
  induction ps generalizing before seen defaulted with
  | nil => simp [paramFault?]
  | cons p ps ih =>
    have htake : ∀ i, before ++ [p] ++ ps.take i = before ++ (p :: ps).take (i + 1) := by
      intro i
      rw [List.take_succ_cons, List.append_assoc, List.singleton_append]
    have hstart : before ++ (p :: ps).take 0 = before := by
      rw [List.take_zero, List.append_nil]
    rw [h.paramFault?_cons, Option.or_eq_some_iff, ih (h.concat p)]
    constructor
    · rintro (hfault | ⟨hnone, i, q, hq, hfault, hfirst⟩)
      · exact ⟨0, p, rfl, by rwa [hstart], fun j q hj => absurd hj (Nat.not_lt_zero j)⟩
      · refine ⟨i + 1, q, hq, by rwa [← htake], fun j r hj hr => ?_⟩
        cases j with
        | zero =>
          obtain rfl : p = r := Option.some.inj hr
          rwa [hstart]
        | succ j =>
          rw [← htake]
          exact hfirst j r (Nat.lt_of_succ_lt_succ hj) hr
    · rintro ⟨i, q, hq, hfault, hfirst⟩
      cases i with
      | zero =>
        obtain rfl : p = q := Option.some.inj hq
        exact .inl (by rwa [hstart] at hfault)
      | succ i =>
        have hnone := hfirst 0 p (Nat.succ_pos i) rfl
        rw [hstart] at hnone
        rw [← htake] at hfault
        refine .inr ⟨hnone, i, q, hq, hfault, fun j r hj hr => ?_⟩
        rw [htake]
        exact hfirst (j + 1) r (Nat.succ_lt_succ hj) hr

/-- A parameter list is reported for the first parameter that breaks a rule: for its place if that
is wrong, and else for its name. -/
theorem paramFault?_eq_some_iff : paramFault? [] false ps = some fault ↔
    ∃ i p, FirstBreach ps i p ∧
      (Misordered (ps.take i) p ∧ fault = .requiredAfterDefault p.name ∨
        ¬ Misordered (ps.take i) p ∧ fault = .duplicate p.name) := by
  rw [carries_start.paramFault?_eq_some_iff]
  simp only [List.nil_append, breach?_eq_some, breach?_eq_none]
  constructor
  · rintro ⟨i, p, hp, ⟨hm, hfault⟩ | ⟨hm, hr, hfault⟩, hfirst⟩
    · exact ⟨i, p, ⟨hp, .inl hm, hfirst⟩, .inl ⟨hm, hfault⟩⟩
    · exact ⟨i, p, ⟨hp, .inr hr, hfirst⟩, .inr ⟨hm, hfault⟩⟩
  · rintro ⟨i, p, ⟨hp, hbreach, hfirst⟩, ⟨hm, hfault⟩ | ⟨hm, hfault⟩⟩
    · exact ⟨i, p, hp, .inl ⟨hm, hfault⟩, hfirst⟩
    · exact ⟨i, p, hp, .inr ⟨hm, hbreach.resolve_left hm, hfault⟩, hfirst⟩

/-- Nothing is reported of a parameter list exactly if it keeps the rules. -/
theorem paramFault?_eq_none_iff_sound : paramFault? [] false ps = none ↔ Sound ps := by
  rw [paramFault?_eq_none_iff]
  simp only [Option.isSome_iff_ne_none]
  constructor
  · rintro ⟨-, hpair⟩
    exact ⟨List.pairwise_map.2 (hpair.imp And.left), hpair.imp And.right⟩
  · rintro ⟨hdistinct, htrailing⟩
    refine ⟨by simp, ?_⟩
    exact (List.pairwise_map.1 hdistinct).and htrailing

/-- A collecting parameter is reported if it has the name of a parameter. -/
theorem sinkFault?_eq_some : sinkFault? ps sink = some fault ↔
    ∃ name, sink = some name ∧ name ∈ ps.map (·.name) ∧ fault = .duplicate name := by
  unfold sinkFault?
  cases sink with
  | none => simp
  | some name => by_cases h : name ∈ ps.map (·.name) <;> simp [eq_comm]

/-- Nothing is reported of a collecting parameter with a name of its own. -/
theorem sinkFault?_eq_none : sinkFault? ps sink = none ↔ SinkFree ps sink := by
  unfold sinkFault? SinkFree
  cases sink with
  | none => simp
  | some name => by_cases h : name ∈ ps.map (·.name) <;> simp

/-- Collecting parameters are reported if both have the same name. -/
theorem sharedFault?_eq_some : sharedFault? varargs varkw = some fault ↔
    ∃ name, varargs = some name ∧ varkw = some name ∧ fault = .sharedSinkName := by
  unfold sharedFault?
  cases varargs with
  | none => simp
  | some name =>
    by_cases h : some name = varkw
    · subst h
      simp [eq_comm]
    · have hne : varkw ≠ some name := fun hsame => h hsame.symm
      simp [h, hne]

/-- Nothing is reported of collecting parameters with different names. -/
theorem sharedFault?_eq_none : sharedFault? varargs varkw = none ↔
    ∀ name, varargs = some name → varkw ≠ some name := by
  rw [Option.eq_none_iff_forall_ne_some]
  simp only [ne_eq, sharedFault?_eq_some]
  constructor
  · intro h name hargs hkw
    exact h .sharedSinkName ⟨name, hargs, hkw, rfl⟩
  · rintro h fault ⟨name, hargs, hkw, -⟩
    exact h name hargs hkw

/-- The parts of a signature have no fault exactly if the parameters keep the rules and the
collecting ones have names of their own. -/
theorem fault?_eq_none_iff : fault? ps varargs varkw = none ↔
    Sound ps ∧ SinkFree ps varargs ∧ SinkFree ps varkw ∧
      ∀ name, varargs = some name → varkw ≠ some name := by
  simp only [fault?, Option.or_eq_none_iff, paramFault?_eq_none_iff_sound, sinkFault?_eq_none,
    sharedFault?_eq_none]

/-- The fault that is reported of a signature's parts is the one that there is a reason for. -/
theorem fault?_eq_some_iff : fault? ps varargs varkw = some fault ↔
    Refusal ps varargs varkw fault := by
  simp only [fault?, Option.or_eq_some_iff, paramFault?_eq_some_iff,
    paramFault?_eq_none_iff_sound, sinkFault?_eq_some, sinkFault?_eq_none, sharedFault?_eq_some]
  constructor
  · rintro (⟨i, p, hfirst, ⟨hm, rfl⟩ | ⟨hm, rfl⟩⟩ | ⟨hsound, hsinks⟩)
    · exact .misordered hfirst hm
    · exact .repeated hfirst hm
    · rcases hsinks with ⟨name, hargs, htaken, rfl⟩ | ⟨hfree, hrest⟩
      · exact .varargs hsound hargs htaken
      · rcases hrest with ⟨name, hkw, htaken, rfl⟩ | ⟨-, name, hargs, hkw, rfl⟩
        · exact .varkw hsound hfree hkw htaken
        · exact .shared hsound (hfree name hargs) hargs hkw
  · intro h
    cases h with
    | misordered hfirst hm => exact .inl ⟨_, _, hfirst, .inl ⟨hm, rfl⟩⟩
    | repeated hfirst hm => exact .inl ⟨_, _, hfirst, .inr ⟨hm, rfl⟩⟩
    | varargs hsound hargs htaken => exact .inr ⟨hsound, .inl ⟨_, hargs, htaken, rfl⟩⟩
    | varkw hsound hfree hkw htaken =>
      exact .inr ⟨hsound, .inr ⟨hfree, .inl ⟨_, hkw, htaken, rfl⟩⟩⟩
    | shared hsound hfree hargs hkw =>
      have hargsFree : SinkFree ps varargs := by
        rintro name hname
        rw [hargs] at hname
        rwa [← Option.some.inj hname]
      have hkwFree : SinkFree ps varkw := by
        rintro name hname
        rw [hkw] at hname
        rwa [← Option.some.inj hname]
      exact .inr ⟨hsound, .inr ⟨hargsFree, .inr ⟨hkwFree, _, hargs, hkw, rfl⟩⟩⟩

/-- A leading parameter with the receiver's name is dropped, and no other one. -/
theorem dropReceiver_eq (params : List Parameter) : dropReceiver params =
    if params.head?.map (·.name) = some receiver then params.tail else params := by
  cases params with
  | nil => rfl
  | cons p ps => simp [dropReceiver]

/-- A declaration is accepted exactly if its parameters without a leading receiver have distinct
names, none of them without a default follows one with a default, and the collecting parameters
have names of their own. The signature then has those parameters and collecting ones, and the
required parameters are all those without a default. Otherwise it is refused for the first
parameter that breaks a rule, for its place before its name; if there is none, for the name of what
collects values by position, then for that of what collects keywords, then for the one name of
both. -/
theorem declare_accepts_sound_lists (name : String) (params : List Parameter)
    (varargs varkw : Option String) :
    dropReceiver params =
      (if params.head?.map (·.name) = some receiver then params.tail else params) ∧
    ((∃ s, declare name params varargs varkw = .ok s) ↔
      Sound (dropReceiver params) ∧
        SinkFree (dropReceiver params) varargs ∧ SinkFree (dropReceiver params) varkw ∧
        ∀ sink, varargs = some sink → varkw ≠ some sink) ∧
    (∀ s, declare name params varargs varkw = .ok s →
      s.name = name ∧ s.params = dropReceiver params ∧ s.varargs = varargs ∧ s.varkw = varkw ∧
        s.required = (dropReceiver params).filter (·.default.isNone)) ∧
    ∀ fault, declare name params varargs varkw = .error fault ↔
      Refusal (dropReceiver params) varargs varkw fault := by
  refine ⟨dropReceiver_eq params, ?accepted, ?parts, fun fault => ?refused⟩
  case accepted =>
    rw [← fault?_eq_none_iff]
    cases hdeclare : declare name params varargs varkw with
    | error fault => simp [declare_eq_error.1 hdeclare]
    | ok s =>
      have hnone : fault? (dropReceiver params) varargs varkw = none := by
        obtain ⟨-, hparams, hargs, hkw⟩ := declare_eq_ok hdeclare
        rw [← hparams, ← hargs, ← hkw]
        exact s.sound
      simp [hnone]
  case parts =>
    intro s hs
    obtain ⟨hname, hparams, hargs, hkw⟩ := declare_eq_ok hs
    refine ⟨hname, hparams, hargs, hkw, ?_⟩
    rw [required_eq_filter, hparams]
  case refused =>
    rw [declare_eq_error, fault?_eq_some_iff]

/-- A list with a leading receiver, accepted, and one whose second parameter breaks both rules. -/
theorem declare_accepts_sound_lists_sample :
    (∃ s, declare "fetch" [⟨"self", none⟩, ⟨"url", none⟩, ⟨"depth", some .none⟩] (some "rest")
        none = .ok s ∧ s.params = [⟨"url", none⟩, ⟨"depth", some .none⟩] ∧
      s.required = [⟨"url", none⟩]) ∧
    declare "fetch" [⟨"url", some .none⟩, ⟨"url", none⟩] none (some "url") =
      .error (.requiredAfterDefault "url") := by
  obtain ⟨-, haccepted, hparts, -⟩ := declare_accepts_sound_lists "fetch"
    [⟨"self", none⟩, ⟨"url", none⟩, ⟨"depth", some .none⟩] (some "rest") none
  obtain ⟨-, -, -, hrefused⟩ := declare_accepts_sound_lists "fetch"
    [⟨"url", some .none⟩, ⟨"url", none⟩] none (some "url")
  have hsound : Sound [⟨"url", none⟩, ⟨"depth", some .none⟩] := ⟨by decide, by decide⟩
  have hfree : SinkFree [⟨"url", none⟩, ⟨"depth", some .none⟩] (some "rest") := by
    rintro name hname
    cases hname
    decide
  obtain ⟨s, hs⟩ := haccepted.2 ⟨hsound, hfree, by rintro _ ⟨⟩, by rintro _ _ ⟨⟩⟩
  obtain ⟨-, hparams, -, -, hrequired⟩ := hparts s hs
  refine ⟨⟨s, hs, hparams, hrequired⟩, (hrefused _).2 ?_⟩
  have hfirst : FirstBreach [⟨"url", some .none⟩, ⟨"url", none⟩] 1 ⟨"url", none⟩ := by
    refine ⟨rfl, .inl (by decide), fun j q hj hq => ?_⟩
    obtain rfl : j = 0 := by omega
    cases hq
    decide
  exact .misordered hfirst (by decide)

end Delegation.Signature
