import Delegation.Proofs.Nearest
/-!
# Which member a name means

A name means something for a class if a class that bases lead to declares it,
and these are the names of the class's members. What it means is declared by
a class that nothing between the two hides, however the bases branch, and a
class that does not declare a name itself leaves it to one of its bases. A
member that is set later is seen by the classes in whose chains its class
stands behind none that declares the name, and all else stays as it was.
-/

namespace Delegation

namespace Hierarchy

variable {h : Hierarchy} {a b c : ClassId} {n k : String} {m : Member}

/-- A class has a member of its own under a name. -/
def Declares (h : Hierarchy) (a : ClassId) (n : String) : Prop := n ∈ h.ownMembers a

/-- A class declares a name if a member of its own is found under it. -/
theorem declares_iff : h.Declares a n ↔ (h.ownMember? a n).isSome = true := mem_ownMembers

/-- A class does not declare a name if no member of its own is found under it. -/
theorem not_declares_iff : ¬ h.Declares a n ↔ h.ownMember? a n = none := by
  rw [declares_iff, Option.not_isSome_iff_eq_none]

/-- The names of a class's members are those that some class of its chain declares. -/
theorem mem_memberNames_iff_declares :
    k ∈ h.memberNames c ↔ ∃ b ∈ h.chain c, h.Declares b k := by
  rw [mem_memberNames, lookup?, List.findSome?_isSome_iff]
  simp only [declares_iff]

/-- In a hierarchy that was built class by class, a name means something for a class exactly if it
is one of its member names, and exactly if a class that bases lead to declares it. What it means is
the own member of such a class, and no other class that descends from that one, among those that
bases lead to, declares the name. For a class that does not declare the name itself, it means what
it means for one of its bases. -/
theorem lookup?_nearest (built : h.Built) (hc : h.Knows c) (n : String) :
    ((h.lookup? c n).isSome = true ↔ n ∈ h.memberNames c) ∧
    ((h.lookup? c n).isSome = true ↔ ∃ a, h.Reaches c a ∧ h.Declares a n) ∧
    (∀ m, h.lookup? c n = some m → ∃ a, h.Reaches c a ∧ h.ownMember? a n = some m ∧
      ∀ d, h.Reaches c d → h.isSubclass d a = true → d ≠ a → ¬ h.Declares d n) ∧
    (¬ h.Declares c n → (h.lookup? c n).isSome = true →
      ∃ b ∈ h.bases c, h.lookup? c n = h.lookup? b n) := by
  have hordered := built.ordered c hc
  refine ⟨mem_memberNames.symm, ?declared, ?nearest, ?base⟩
  case declared =>
    simp only [declares_iff]
    exact hordered.isSome_findSome?_chain
  case nearest =>
    intro m hm
    obtain ⟨a, ha, hown, hnone⟩ := built.findSome?_chain_nearest hc hm
    refine ⟨a, ha, hown, fun d hd hda hne => not_declares_iff.2 (hnone d hd ?_ hne)⟩
    have hknown : h.Knows d := built.closed c hc d ((hordered.mem_chain d).2 hd)
    exact (built.ordered d hknown).isSubclass_iff.1 hda
  case base =>
    intro hself hsome
    obtain ⟨m, hm⟩ := Option.isSome_iff_exists.1 hsome
    obtain ⟨b, hb, hbase⟩ := built.findSome?_chain_base hc (not_declares_iff.1 hself) hm
    have hsame : h.lookup? b n = some m := hbase
    exact ⟨b, hb, hm.trans hsame.symm⟩

/-- The diamond with a member of the shared base, and one under the same name of the second class
that has it as its base. -/
def namedDiamond : Hierarchy :=
  (diamond.setMember 0 "level" (.attribute (.int 1))).setMember 2 "level" (.attribute (.int 2))

/-- Setting members keeps the diamond one that was built class by class. -/
theorem namedDiamond_built : namedDiamond.Built :=
  (diamond_built.setMember 0 "level" _).setMember 2 "level" _

/-- The member of the second base hides that of the shared base, also from the class that has the
first base in front. -/
theorem lookup?_nearest_diamond :
    namedDiamond.Built ∧ namedDiamond.Knows 3 ∧ ¬ namedDiamond.Declares 3 "level" ∧
      namedDiamond.lookup? 1 "level" = some (.attribute (.int 1)) ∧
      namedDiamond.lookup? 3 "level" = some (.attribute (.int 2)) ∧
      "level" ∈ namedDiamond.memberNames 3 ∧
      (∃ a, namedDiamond.Reaches 3 a ∧
        namedDiamond.ownMember? a "level" = some (.attribute (.int 2)) ∧
        ∀ d, namedDiamond.Reaches 3 d → namedDiamond.isSubclass d a = true → d ≠ a →
          ¬ namedDiamond.Declares d "level") ∧
      ∃ b ∈ namedDiamond.bases 3,
        namedDiamond.lookup? 3 "level" = namedDiamond.lookup? b "level" := by
  have hknown : namedDiamond.Knows 3 := by decide
  have hself : ¬ namedDiamond.Declares 3 "level" := not_declares_iff.2 (by decide +kernel)
  have hleft : namedDiamond.lookup? 1 "level" = some (.attribute (.int 1)) := rfl
  have hbottom : namedDiamond.lookup? 3 "level" = some (.attribute (.int 2)) := rfl
  have hsome : (namedDiamond.lookup? 3 "level").isSome = true := by rw [hbottom]; rfl
  obtain ⟨hnames, -, hnearest, hbase⟩ := lookup?_nearest namedDiamond_built hknown "level"
  exact ⟨namedDiamond_built, hknown, hself, hleft, hbottom, hnames.1 hsome, hnearest _ hbottom,
    hbase hself hsome⟩

/-- A class stands in another one's chain behind none that declares a name. -/
def Unshadowed (h : Hierarchy) (n : String) (a c : ClassId) : Prop :=
  ∃ before after, h.chain c = before ++ a :: after ∧ ∀ d ∈ before, ¬ h.Declares d n

/-- A class is unshadowed in a chain if it is foremost among those with a member of their own. -/
theorem unshadowed_iff :
    h.Unshadowed n a c ↔ Ancestry.Foremost (fun b => h.ownMember? b n) a (h.chain c) := by
  simp only [Unshadowed, Ancestry.Foremost, not_declares_iff]

/-- A class that a member is set on declares its name, and nothing else is declared anew. -/
theorem declares_setMember (ha : h.Knows a) :
    (h.setMember a n m).Declares b k ↔ h.Declares b k ∨ b = a ∧ k = n := by
  rw [declares_iff, declares_iff, ownMember?_setMember h a b n k m ha]
  by_cases hset : b = a ∧ k = n
  · simp [hset]
  · simp [hset]

/-- Under the name that was set, the member is found by the classes in whose chains its class is
unshadowed, and the others find what they found before. -/
theorem lookup?_setMember_self (ha : h.Knows a) (c : ClassId) :
    (h.Unshadowed n a c → (h.setMember a n m).lookup? c n = some m) ∧
      (¬ h.Unshadowed n a c → (h.setMember a n m).lookup? c n = h.lookup? c n) := by
  let found := fun b => (h.setMember a n m).ownMember? b n
  have hset : found a = some m := (ownMember?_setMember h a a n n m ha).trans (if_pos ⟨rfl, rfl⟩)
  have hothers : ∀ b, b ≠ a → found b = h.ownMember? b n := fun b hb =>
    ownMember?_setMember_of_ne m fun hboth => hb hboth.1
  rw [unshadowed_iff, lookup?, lookup?, chain_setMember]
  exact Ancestry.findSome?_of_given hset hothers (h.chain c)

/-- The names of a class's members after a member was set on a class. -/
theorem memberNames_setMember (ha : h.Knows a) (c : ClassId) :
    (h.setMember a n m).memberNames c =
      if a ∈ h.chain c then (h.memberNames c).insert n else h.memberNames c := by
  refine Std.ExtTreeSet.ext_mem fun k => ?_
  have hnames : k ∈ (h.setMember a n m).memberNames c ↔
      k ∈ h.memberNames c ∨ a ∈ h.chain c ∧ k = n := by
    rw [mem_memberNames_iff_declares, mem_memberNames_iff_declares, chain_setMember]
    simp only [declares_setMember ha]
    constructor
    · rintro ⟨b, hb, hold | ⟨rfl, rfl⟩⟩
      · exact .inl ⟨b, hb, hold⟩
      · exact .inr ⟨hb, rfl⟩
    · rintro (⟨b, hb, hold⟩ | ⟨hb, rfl⟩)
      · exact ⟨b, hb, .inl hold⟩
      · exact ⟨a, hb, .inr ⟨rfl, rfl⟩⟩
  rw [hnames]
  by_cases hc : a ∈ h.chain c
  · rw [if_pos hc, Std.ExtTreeSet.mem_insert, Std.LawfulEqCmp.compare_eq_iff_eq]
    simp only [hc, true_and, eq_comm, or_comm]
  · simp [hc]

/-- After a member was set on a declared class, its name means the new member for the classes in
whose chains the declared class stands behind none that declares the name. In all other cases a name
means what it meant. All chains stay, and the name is added to the member names of the classes whose
chains have the declared class. -/
theorem setMember_seen_where_unshadowed (ha : h.Knows a) (n : String) (m : Member) :
    (∀ c, h.Unshadowed n a c → (h.setMember a n m).lookup? c n = some m) ∧
    (∀ c k, ¬ (k = n ∧ h.Unshadowed n a c) →
      (h.setMember a n m).lookup? c k = h.lookup? c k) ∧
    (∀ c, (h.setMember a n m).chain c = h.chain c) ∧
    ∀ c, (h.setMember a n m).memberNames c =
      if a ∈ h.chain c then (h.memberNames c).insert n else h.memberNames c := by
  refine ⟨fun c => (lookup?_setMember_self ha c).1, ?others, fun c => chain_setMember h a c n m,
    memberNames_setMember ha⟩
  case others =>
    intro c k hother
    by_cases hk : k = n
    · subst hk
      have hshadowed : ¬ h.Unshadowed k a c := fun hseen => hother ⟨rfl, hseen⟩
      exact (lookup?_setMember_self ha c).2 hshadowed
    · exact lookup?_setMember m (.inr hk)

/-- A member that is set on the shared base is seen by the first class that has it as its base, and
hidden from the class at the bottom by the member of the second one. A new name is added there. -/
theorem setMember_seen_where_unshadowed_diamond :
    namedDiamond.Knows 0 ∧ namedDiamond.Unshadowed "level" 0 1 ∧
      ¬ namedDiamond.Unshadowed "level" 0 3 ∧
      (namedDiamond.setMember 0 "level" (.attribute (.int 7))).lookup? 1 "level" =
        some (.attribute (.int 7)) ∧
      (namedDiamond.setMember 0 "level" (.attribute (.int 7))).lookup? 3 "level" =
        some (.attribute (.int 2)) ∧
      (namedDiamond.setMember 0 "level" (.attribute (.int 7))).chain 3 = [3, 1, 2, 0] ∧
      (namedDiamond.setMember 0 "legend" (.attribute (.int 7))).memberNames 3 =
        (namedDiamond.memberNames 3).insert "legend" := by
  have hknown : namedDiamond.Knows 0 := by decide
  have hleft : ¬ namedDiamond.Declares 1 "level" := not_declares_iff.2 (by decide +kernel)
  have hright : namedDiamond.Declares 2 "level" := declares_iff.2 (by decide +kernel)
  have hseen : namedDiamond.Unshadowed "level" 0 1 :=
    ⟨[1], [], rfl, fun d hd => List.mem_singleton.1 hd ▸ hleft⟩
  have hhidden : ¬ namedDiamond.Unshadowed "level" 0 3 := by
    rintro ⟨before, after, hchain, hnone⟩
    have hreaches : namedDiamond.Reaches 2 0 := .single (by decide)
    have hearly : 2 ∈ before :=
      namedDiamond_built.mem_before (by decide) hchain (by decide) hreaches (by decide)
    exact hnone 2 hearly hright
  obtain ⟨hnew, hold, hchains, -⟩ :=
    setMember_seen_where_unshadowed hknown "level" (.attribute (.int 7))
  obtain ⟨-, -, -, hnames⟩ := setMember_seen_where_unshadowed hknown "legend" (.attribute (.int 7))
  have hbottom : namedDiamond.lookup? 3 "level" = some (.attribute (.int 2)) := rfl
  refine ⟨hknown, hseen, hhidden, hnew 1 hseen, ?_, (hchains 3).trans (by decide), ?_⟩
  · exact (hold 3 "level" fun hboth => hhidden hboth.2).trans hbottom
  · exact (hnames 3).trans (if_pos (by decide))

end Hierarchy

end Delegation
