import Mathlib.Data.List.Nodup
import Delegation.Proofs.Entries
import Delegation.Proofs.Renaming
/-!
# Renaming as one substitution

The rules of a renaming are applied one after the other, but a keyword that has
its new name is out of their reach. So a rule takes a keyword exactly if its old
name is given and no rule before it is for the same old name, whatever the rules
are. Of several rules that take a keyword to one name the last one decides, and
a keyword that is the old name of no rule wins over all of them. Where the rules
have distinct old and distinct new names their order makes no difference.
-/

namespace Delegation.Renaming

variable {rules done : List (String × String)} {given : NameMap Value} {rule : String × String}
  {i : Nat} {old new k : String} {v : Value} {found : Option Value} {progress : Progress}
  {r r' : Renaming}

/-- The rule at a place takes the keyword of its old name to its new name. -/
structure Takes (rules : List (String × String)) (given : NameMap Value) (i : Nat)
    (old new : String) : Prop where
  /-- The rule stands at the place. -/
  place : rules[i]? = some (old, new)
  /-- The keyword is given. -/
  mem : old ∈ given
  /-- No rule before it is for the same old name. -/
  first : old ∉ (rules.take i).map (·.1)

/-- It is the last rule that takes a keyword to that name. -/
structure TakesLast (rules : List (String × String)) (given : NameMap Value) (i : Nat)
    (old new : String) : Prop extends Takes rules given i old new where
  /-- None after it does. -/
  last : ∀ i' old', i < i' → ¬ Takes rules given i' old' new

/-- What the rules bring to a name: the value of the keyword that the last rule takes there, and
nothing if no rule takes one there. -/
def Brings (rules : List (String × String)) (given : NameMap Value) (new : String)
    (found : Option Value) : Prop :=
  (∃ i old, TakesLast rules given i old new ∧ found = given[old]?) ∨
    (∀ i old, ¬ Takes rules given i old new) ∧ found = none

/-- With one more rule, those before it take what they took, and the new one takes the keyword of
its old name if none of them is for that. -/
theorem takes_concat : Takes (done ++ [rule]) given i old new ↔
    Takes done given i old new ∨
      i = done.length ∧ rule = (old, new) ∧ old ∈ given ∧ old ∉ done.map (·.1) := by
  constructor
  · rintro ⟨hplace, hmem, hfirst⟩
    rcases Nat.lt_trichotomy i done.length with hlt | rfl | hgt
    · rw [List.getElem?_append_left hlt] at hplace
      rw [List.take_append_of_le_length (Nat.le_of_lt hlt)] at hfirst
      exact .inl ⟨hplace, hmem, hfirst⟩
    · rw [List.getElem?_concat_length] at hplace
      rw [List.take_left] at hfirst
      exact .inr ⟨rfl, Option.some.inj hplace, hmem, hfirst⟩
    · have hlength : (done ++ [rule]).length ≤ i := by
        rwa [List.length_append, List.length_singleton]
      rw [List.getElem?_eq_none hlength] at hplace
      cases hplace
  · rintro (⟨hplace, hmem, hfirst⟩ | ⟨rfl, rfl, hmem, hfirst⟩)
    · have hlt : i < done.length := (List.getElem?_eq_some_iff.1 hplace).1
      refine ⟨by rwa [List.getElem?_append_left hlt], hmem, ?_⟩
      rwa [List.take_append_of_le_length (Nat.le_of_lt hlt)]
    · exact ⟨List.getElem?_concat_length, hmem, by rwa [List.take_left]⟩

/-- A rule that takes no keyword to a name leaves what is brought there. -/
theorem Brings.concat_of_not (h : Brings done given new found)
    (hnot : ¬ (rule.2 = new ∧ rule.1 ∈ given ∧ rule.1 ∉ done.map (·.1))) :
    Brings (done ++ [rule]) given new found := by
  have hsame : ∀ i old, Takes (done ++ [rule]) given i old new ↔ Takes done given i old new := by
    intro i old
    rw [takes_concat, or_iff_left]
    rintro ⟨-, rfl, hmem, hfirst⟩
    exact hnot ⟨rfl, hmem, hfirst⟩
  rcases h with ⟨i, old, hlast, hfound⟩ | ⟨hnone, hfound⟩
  · refine .inl ⟨i, old, ⟨(hsame i old).2 hlast.toTakes, fun i' old' hi => ?_⟩, hfound⟩
    exact mt (hsame i' old').1 (hlast.last i' old' hi)
  · exact .inr ⟨fun i old => mt (hsame i old).1 (hnone i old), hfound⟩

/-- A rule that takes a keyword to a name brings its value there. -/
theorem brings_concat (hmem : old ∈ given) (hfirst : old ∉ done.map (·.1)) :
    Brings (done ++ [(old, new)]) given new given[old]? := by
  have htakes : Takes (done ++ [(old, new)]) given done.length old new :=
    takes_concat.2 (.inr ⟨rfl, rfl, hmem, hfirst⟩)
  refine .inl ⟨done.length, old, ⟨htakes, fun i' old' hi hlater => ?_⟩, rfl⟩
  have hlt : i' < (done ++ [(old, new)]).length := (List.getElem?_eq_some_iff.1 hlater.place).1
  rw [List.length_append, List.length_singleton] at hlt
  exact Nat.not_lt.2 (Nat.le_of_lt_succ hlt) hi

/-- What the rules so far have done to the keywords: those of their old names are gone, and under
every name stands what they bring there. -/
structure Progress.Reflects (done : List (String × String)) (given : NameMap Value)
    (progress : Progress) : Prop where
  /-- The keywords left are those that no rule so far is for. -/
  remaining : ∀ k, progress.remaining[k]? =
    if k ∈ done.map (·.1) then none else given[k]?
  /-- Those taken are under their new names. -/
  renamed : ∀ k, Brings done given k progress.renamed[k]?

/-- At first nothing was taken. -/
theorem Progress.reflects_start (given : NameMap Value) :
    Progress.Reflects [] given ⟨given, ∅⟩ where
  remaining _ := rfl
  renamed k := by
    refine .inr ⟨fun i old htakes => ?_, Std.ExtTreeMap.getElem?_empty⟩
    cases htakes.place

/-- A rule finds the keyword of its old name exactly if that is given and no rule before it is for
the same old name. -/
theorem Progress.Reflects.remaining_eq_some (h : progress.Reflects done given) :
    progress.remaining[old]? = some v ↔ given[old]? = some v ∧ old ∉ done.map (·.1) := by
  rw [h.remaining]
  split <;> simp [*]

/-- Applying one more rule. -/
theorem Progress.Reflects.apply (h : progress.Reflects done given) (rule : String × String) :
    (progress.apply rule).Reflects (done ++ [rule]) given := by
  obtain ⟨old, new⟩ := rule
  have hgone : ∀ k, k ∈ (done ++ [(old, new)]).map (·.1) ↔ k ∈ done.map (·.1) ∨ old = k := by
    intro k
    rw [List.map_append, List.mem_append, List.map_singleton, List.mem_singleton,
      eq_comm (a := k)]
  cases hremaining : progress.remaining[old]? with
  | none =>
    -- a rule before is for the same old name, or no such keyword is given
    have happly : progress.apply (old, new) = progress := by
      simp only [Progress.apply, hremaining]
    rw [happly]
    refine ⟨fun k => ?_, fun k => (h.renamed k).concat_of_not ?_⟩
    · by_cases hk : old = k
      · rw [if_pos ((hgone k).2 (.inr hk)), ← hk, hremaining]
      · simp only [h.remaining, hgone, hk, or_false]
    · rintro ⟨-, hmem, hfirst⟩
      rw [h.remaining, if_neg hfirst] at hremaining
      exact (getElem?_eq_none_iff _ _).1 hremaining hmem
  | some v =>
    obtain ⟨hv, hfirst⟩ := h.remaining_eq_some.1 hremaining
    have happly : progress.apply (old, new) =
        ⟨progress.remaining.erase old, progress.renamed.insert new v⟩ := by
      simp only [Progress.apply, hremaining]
    rw [happly]
    refine ⟨fun k => ?_, fun k => ?_⟩
    · rw [Entries.getElem?_erase, h.remaining]
      by_cases hk : old = k
      · rw [if_pos ((hgone k).2 (.inr hk)), if_pos hk]
      · rw [if_neg hk]
        simp only [hgone, hk, or_false]
    · rw [Entries.getElem?_insert]
      by_cases hk : new = k
      · rw [if_pos hk, ← hk, ← hv]
        exact brings_concat (Std.ExtTreeMap.getElem?_eq_some_iff.1 hv).1 hfirst
      · rw [if_neg hk]
        exact (h.renamed k).concat_of_not fun htaken => hk htaken.1

/-- Applying rules one after the other. -/
theorem Progress.Reflects.foldl (h : progress.Reflects done given)
    (rules : List (String × String)) :
    (rules.foldl Progress.apply progress).Reflects (done ++ rules) given := by
  induction rules generalizing done progress with
  | nil => rwa [List.append_nil]
  | cons rule rules ih =>
    rw [List.foldl_cons, List.append_cons]
    exact ih (h.apply rule)

/-- A keyword that is the old name of no rule keeps its value, and under every other name stands
what the rules bring there. -/
theorem keywords_eq (r : Renaming) (given : NameMap Value) :
    (∀ k ∈ given, k ∉ r.rules.map (·.1) → (r.keywords given)[k]? = given[k]?) ∧
      ∀ k, k ∉ given ∨ k ∈ r.rules.map (·.1) →
        Brings r.rules given k (r.keywords given)[k]? := by
  have h : (r.rules.foldl Progress.apply ⟨given, ∅⟩).Reflects ([] ++ r.rules) given :=
    (Progress.reflects_start given).foldl r.rules
  rw [List.nil_append] at h
  have hkeywords : ∀ k, (r.keywords given)[k]? =
      (if k ∈ r.rules.map (·.1) then none else given[k]?).or
        (r.rules.foldl Progress.apply ⟨given, ∅⟩).renamed[k]? := by
    intro k
    rw [keywords, Std.ExtTreeMap.getElem?_union, h.remaining]
  constructor
  · intro k hk hold
    rw [hkeywords, if_neg hold]
    exact Option.or_of_isSome (Std.ExtTreeMap.mem_iff_isSome_getElem?.1 hk)
  · intro k hk
    have hnone : (if k ∈ r.rules.map (·.1) then none else given[k]?) = none := by
      rcases hk with hk | hold
      · rw [Std.ExtTreeMap.getElem?_eq_none hk, ite_self]
      · exact if_pos hold
    rw [hkeywords, hnone, Option.none_or]
    exact h.renamed k

/-- Where the rules have distinct old names, every one takes the keyword of its old name. -/
theorem takes_of_distinct (hold : (rules.map (·.1)).Nodup) (hplace : rules[i]? = some (old, new))
    (hmem : old ∈ given) : Takes rules given i old new := by
  refine ⟨hplace, hmem, fun hearlier => ?_⟩
  obtain ⟨⟨_, new'⟩, hrule, rfl⟩ := List.mem_map.1 hearlier
  obtain ⟨j, hj⟩ := List.mem_iff_getElem?.1 hrule
  rw [List.getElem?_take] at hj
  split at hj
  · rename_i hlt
    have hlength : j < (rules.map (·.1)).length := by
      rw [List.length_map]
      exact (List.getElem?_eq_some_iff.1 hj).1
    have hsame : (rules.map (·.1))[j]? = (rules.map (·.1))[i]? := by
      rw [List.getElem?_map, List.getElem?_map, hj, hplace]
      rfl
    exact Nat.ne_of_lt hlt ((List.getElem?_inj hlength hold).1 hsame)
  · cases hj

/-- Rules with distinct old and distinct new names bring to a name the value of the keyword that is
the old name for it, wherever that rule stands. -/
theorem Brings.eq_some_iff_of_distinct (h : Brings rules given new found)
    (hold : (rules.map (·.1)).Nodup) (hnew : (rules.map (·.2)).Nodup) :
    found = some v ↔ ∃ old, (old, new) ∈ rules ∧ given[old]? = some v := by
  rcases h with ⟨i, old, hlast, rfl⟩ | ⟨hnone, rfl⟩
  · have hrule : (old, new) ∈ rules := List.mem_of_getElem? hlast.place
    constructor
    · exact fun hv => ⟨old, hrule, hv⟩
    · rintro ⟨old', hrule', hv⟩
      cases List.inj_on_of_nodup_map hnew hrule hrule' rfl
      exact hv
  · constructor
    · intro hv
      cases hv
    · rintro ⟨old, hrule, hv⟩
      obtain ⟨i, hplace⟩ := List.mem_iff_getElem?.1 hrule
      have hmem : old ∈ given := (Std.ExtTreeMap.getElem?_eq_some_iff.1 hv).1
      exact absurd (takes_of_distinct hold hplace hmem) (hnone i old)

/-- Rules with distinct old and distinct new names take every keyword at once: an old name that is
also a new one gets the value of the keyword renamed to it. -/
theorem getElem?_keywords_of_distinct (hold : (r.rules.map (·.1)).Nodup)
    (hnew : (r.rules.map (·.2)).Nodup) (hrule : (old, new) ∈ r.rules)
    (hfree : new ∉ given ∨ new ∈ r.rules.map (·.1)) :
    (r.keywords given)[new]? = given[old]? := by
  refine Option.ext fun v => ?_
  rw [((keywords_eq r given).2 new hfree).eq_some_iff_of_distinct hold hnew]
  constructor
  · rintro ⟨old', hrule', hv⟩
    cases List.inj_on_of_nodup_map hnew hrule hrule' rfl
    exact hv
  · exact fun hv => ⟨old, hrule, hv⟩

/-- The order of rules with distinct old and distinct new names makes no difference. -/
theorem keywords_of_perm (hperm : r'.rules.Perm r.rules) (hold : (r.rules.map (·.1)).Nodup)
    (hnew : (r.rules.map (·.2)).Nodup) (given : NameMap Value) :
    r'.keywords given = r.keywords given := by
  have hold' : (r'.rules.map (·.1)).Nodup := (hperm.map _).nodup_iff.2 hold
  have hnew' : (r'.rules.map (·.2)).Nodup := (hperm.map _).nodup_iff.2 hnew
  have hnames : ∀ k, k ∈ r'.rules.map (·.1) ↔ k ∈ r.rules.map (·.1) :=
    fun k => (hperm.map _).mem_iff
  refine Std.ExtTreeMap.ext_getElem? fun k => ?_
  by_cases hk : k ∈ given ∧ k ∉ r.rules.map (·.1)
  · rw [(keywords_eq r given).1 k hk.1 hk.2,
      (keywords_eq r' given).1 k hk.1 (mt (hnames k).1 hk.2)]
  · have hfree : k ∉ given ∨ k ∈ r.rules.map (·.1) := by rwa [not_and_or, not_not] at hk
    have hfree' : k ∉ given ∨ k ∈ r'.rules.map (·.1) := hfree.imp_right (hnames k).2
    refine Option.ext fun v => ?_
    rw [((keywords_eq r given).2 k hfree).eq_some_iff_of_distinct hold hnew,
      ((keywords_eq r' given).2 k hfree').eq_some_iff_of_distinct hold' hnew']
    simp only [hperm.mem_iff]

/-- Renaming the keywords of a call is one simultaneous substitution, whatever old and new names
the rules share. In an adapted call a keyword that is the old name of no rule has its value; under
every other name stands the value that the call gives the old name of the last rule that takes a
keyword there, and nothing if no rule takes one there. So an old name is left only if a rule takes
a keyword to it. Rules with distinct old and distinct new names that swap two names swap their
values, and in any other order they adapt the call alike. -/
theorem adapt_renames_at_once {s : Signature} {a handed : Arguments}
    (h : r.adapt s a = .ok handed) :
    (∀ k ∈ a.keywords, k ∉ r.rules.map (·.1) → handed.keywords[k]? = a.keywords[k]?) ∧
    (∀ k, k ∉ a.keywords ∨ k ∈ r.rules.map (·.1) →
      (∃ i old, TakesLast r.rules a.keywords i old k ∧
        handed.keywords[k]? = a.keywords[old]?) ∨
      (∀ i old, ¬ Takes r.rules a.keywords i old k) ∧ handed.keywords[k]? = none) ∧
    (∀ k ∈ r.rules.map (·.1), k ∈ handed.keywords →
      ∃ i old, Takes r.rules a.keywords i old k) ∧
    ((r.rules.map (·.1)).Nodup → (r.rules.map (·.2)).Nodup →
      (∀ x y, (x, y) ∈ r.rules → (y, x) ∈ r.rules →
        handed.keywords[x]? = a.keywords[y]? ∧ handed.keywords[y]? = a.keywords[x]?) ∧
      ∀ r' : Renaming, r'.rules.Perm r.rules → r'.adapt s a = .ok handed) := by
  have hhanded : handed.keywords = r.keywords a.keywords := by rw [adapt_eq_ok h, renamed]
  obtain ⟨hkept, hbrought⟩ := keywords_eq r a.keywords
  rw [hhanded]
  refine ⟨hkept, hbrought, ?survives, fun hold hnew => ⟨?swaps, ?order⟩⟩
  case survives =>
    intro k hk hleft
    rcases hbrought k (.inr hk) with ⟨i, old, hlast, -⟩ | ⟨-, hnone⟩
    · exact ⟨i, old, hlast.toTakes⟩
    · exact absurd hleft ((getElem?_eq_none_iff _ _).1 hnone)
  case swaps =>
    intro x y hxy hyx
    have hx : x ∈ r.rules.map (·.1) := List.mem_map.2 ⟨_, hxy, rfl⟩
    have hy : y ∈ r.rules.map (·.1) := List.mem_map.2 ⟨_, hyx, rfl⟩
    exact ⟨getElem?_keywords_of_distinct hold hnew hyx (.inr hx),
      getElem?_keywords_of_distinct hold hnew hxy (.inr hy)⟩
  case order =>
    intro r' hperm
    rw [← h]
    simp only [adapt, keywords_of_perm hperm hold hnew]

/-- Two rules that swap the names of two keywords, in either order. -/
theorem adapt_renames_at_once_swap :
    ∃ handed,
      (Renaming.mk [("url", "retries"), ("retries", "url")]).adapt Delegate.renamedMethod.signature
        ⟨[], .ofEntries [("url", .int 3), ("retries", .str "x")]⟩ = .ok handed ∧
      handed.keywords["url"]? = some (.str "x") ∧ handed.keywords["retries"]? = some (.int 3) ∧
      (Renaming.mk [("retries", "url"), ("url", "retries")]).adapt Delegate.renamedMethod.signature
        ⟨[], .ofEntries [("url", .int 3), ("retries", .str "x")]⟩ = .ok handed := by
  have h : (Renaming.mk [("url", "retries"), ("retries", "url")]).adapt
      Delegate.renamedMethod.signature
      ⟨[], .ofEntries [("url", .int 3), ("retries", .str "x")]⟩ =
      .ok ⟨[], .ofEntries [("retries", .int 3), ("url", .str "x")]⟩ := by
    decide +kernel
  obtain ⟨-, -, -, hdistinct⟩ := adapt_renames_at_once h
  obtain ⟨hswaps, horder⟩ := hdistinct (by decide) (by decide)
  obtain ⟨hretries, hurl⟩ := hswaps "retries" "url" (by decide) (by decide)
  exact ⟨_, h, hurl.trans (by decide +kernel), hretries.trans (by decide +kernel),
    horder _ (List.Perm.swap _ _ _)⟩

end Delegation.Renaming
