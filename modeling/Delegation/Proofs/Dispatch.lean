import Delegation.Dispatch
import Delegation.Proofs.Nearest
/-!
# Which class's handler is chosen

A class answers for a qualifier if it has a handler for it or a default one,
and the first class of a chain that answers decides. In a hierarchy that was
built class by class a chain has every class before all that it descends from
and keeps the chains of the bases. So no class between the chosen one and the
class that is resolved answers, however the bases branch, and a class that
does not answer itself leaves the choice to one of its bases.
-/

namespace Delegation

namespace HandlerTable

variable {η : Type} {t : HandlerTable η} {h : Hierarchy} {c : ClassId} {q : String} {v : η}

/-- A class has a handler for a qualifier or a default one. -/
def Answers (t : HandlerTable η) (q : String) (c : ClassId) : Prop :=
  t.contains c q = true ∨ t.contains c default = true

/-- A class answers if it has a handler of its own to answer with. -/
theorem not_answers_iff : ¬ t.Answers q c ↔ t.ownHandler? q c = none := by
  rw [Answers, not_or, ownHandler?, Option.or_eq_none_iff, contains, contains,
    Option.not_isSome_iff_eq_none, Option.not_isSome_iff_eq_none]

/-- What a class answers with is its handler for the qualifier, and its default one only if it has
none for the qualifier. -/
theorem ownHandler?_eq_some : t.ownHandler? q c = some v ↔
    t.get? c q = some v ∨ t.get? c q = none ∧ t.get? c default = some v := Option.or_eq_some_iff

/-- A class is not resolved exactly if no class of its chain answers. -/
theorem resolve_eq_error_iff {e : DispatchError} : t.resolve h c q = .error e ↔
    e = .unresolved (h.name c) q ∧ ∀ a ∈ h.chain c, ¬ t.Answers q a := by
  simp only [not_answers_iff, ← List.findSome?_eq_none_iff]
  unfold resolve
  cases (h.chain c).findSome? (t.ownHandler? q) <;> simp [eq_comm]

/-- A class is resolved to what the first class of its chain that answers does so with. -/
theorem resolve_eq_ok_iff : t.resolve h c q = .ok v ↔ ∃ before a after,
    h.chain c = before ++ a :: after ∧ t.ownHandler? q a = some v ∧
      ∀ d ∈ before, ¬ t.Answers q d := by
  simp only [not_answers_iff, ← List.findSome?_eq_some_iff]
  unfold resolve
  cases (h.chain c).findSome? (t.ownHandler? q) <;> simp

/-- A chain that keeps another one's order decides as the other one, if the deciding class is in
it. -/
theorem resolve_of_sublist {b a : ClassId} {before after : List ClassId}
    (hchain : h.chain c = before ++ a :: after) (hnodup : (h.chain c).Nodup)
    (hown : t.ownHandler? q a = some v) (hbefore : ∀ d ∈ before, ¬ t.Answers q d)
    (hsub : (h.chain b).Sublist (h.chain c)) (ha : a ∈ h.chain b) : t.resolve h b q = .ok v := by
  have hsilent : ∀ d ∈ before, t.ownHandler? q d = none := fun d hd =>
    not_answers_iff.1 (hbefore d hd)
  have hfound : (h.chain b).findSome? (t.ownHandler? q) = some v :=
    Ancestry.findSome?_of_sublist hchain hnodup hown hsilent hsub ha
  rw [resolve, hfound]

/-- In a hierarchy that was built class by class, a class is not resolved exactly if no class that
it reaches through bases answers. If one does, the handler is what such a class answers with, and no
other class that descends from that one, among those reached, answers. A class that does not
answer itself, and is resolved, is resolved as one of its bases is. -/
theorem resolve_nearest (built : h.Built) (hc : h.Knows c) (t : HandlerTable η) (q : String) :
    (∀ e, t.resolve h c q = .error e ↔
      e = .unresolved (h.name c) q ∧ ∀ a, h.Reaches c a → ¬ t.Answers q a) ∧
    ((∃ a, h.Reaches c a ∧ t.Answers q a) → ∃ v a, t.resolve h c q = .ok v ∧ h.Reaches c a ∧
      (t.get? a q = some v ∨ t.get? a q = none ∧ t.get? a default = some v) ∧
      ∀ d, h.Reaches c d → h.Reaches d a → d ≠ a → ¬ t.Answers q d) ∧
    (¬ t.Answers q c → ∀ v, t.resolve h c q = .ok v →
      ∃ b ∈ h.bases c, t.resolve h b q = .ok v) := by
  have hordered := built.ordered c hc
  refine ⟨?unresolved, ?resolved, ?base⟩
  case unresolved =>
    intro e
    simp only [resolve_eq_error_iff, hordered.mem_chain]
  case resolved =>
    rintro ⟨d, hd, hanswers⟩
    cases hresolve : t.resolve h c q with
    | error e =>
      have hnone := (resolve_eq_error_iff.1 hresolve).2 d ((hordered.mem_chain d).2 hd)
      exact absurd hanswers hnone
    | ok v =>
      obtain ⟨before, a, after, hchain, hown, hbefore⟩ := resolve_eq_ok_iff.1 hresolve
      have ha : a ∈ h.chain c := hchain ▸ List.mem_append_right _ List.mem_cons_self
      refine ⟨v, a, rfl, (hordered.mem_chain a).1 ha, ownHandler?_eq_some.1 hown, ?_⟩
      intro d hd hda hne
      exact hbefore d (built.mem_before hc hchain ((hordered.mem_chain d).2 hd) hda hne)
  case base =>
    intro hself v hresolve
    obtain ⟨before, a, after, hchain, hown, hbefore⟩ := resolve_eq_ok_iff.1 hresolve
    have ha : a ∈ h.chain c := hchain ▸ List.mem_append_right _ List.mem_cons_self
    have hne : a ≠ c := by
      rintro rfl
      rw [not_answers_iff.1 hself] at hown
      cases hown
    obtain ⟨b, hb, hab, hsub⟩ := built.exists_base hc ha hne
    exact ⟨b, hb, resolve_of_sublist hchain hordered.nodup hown hbefore hsub hab⟩

/-- Of a class with two bases that share a base, the shared base has a qualified handler, and the
second base a default one. -/
def sampleTable : HandlerTable String := (empty.put 0 "x" "root").put 2 default "right"

/-- In the diamond the default handler of one base hides the qualified handler of the shared
base. -/
theorem resolve_nearest_diamond :
    Hierarchy.diamond.Built ∧ Hierarchy.diamond.Knows 3 ∧
      ¬ sampleTable.Answers "x" 3 ∧ sampleTable.Answers "x" 0 ∧
      sampleTable.resolve Hierarchy.diamond 3 "x" = .ok "right" ∧
      (∃ b ∈ Hierarchy.diamond.bases 3,
        sampleTable.resolve Hierarchy.diamond b "x" = .ok "right") ∧
      ∃ v a, sampleTable.resolve Hierarchy.diamond 3 "x" = .ok v ∧
        Hierarchy.diamond.Reaches 3 a ∧
        (sampleTable.get? a "x" = some v ∨
          sampleTable.get? a "x" = none ∧ sampleTable.get? a default = some v) := by
  have hknown : Hierarchy.diamond.Knows 3 := by decide
  have hself : ¬ sampleTable.Answers "x" 3 := not_answers_iff.2 (by decide +kernel)
  have hroot : sampleTable.Answers "x" 0 := .inl (by decide +kernel)
  have hright : sampleTable.resolve Hierarchy.diamond 3 "x" = .ok "right" := by
    have hfound : (Hierarchy.diamond.chain 3).findSome? (sampleTable.ownHandler? "x") =
        some "right" := by
      decide +kernel
    rw [resolve, hfound]
  have hreaches : Hierarchy.diamond.Reaches 3 0 :=
    .trans (.single (show 1 ∈ Hierarchy.diamond.bases 3 by decide)) (.single (by decide))
  obtain ⟨-, hresolved, hbase⟩ :=
    resolve_nearest Hierarchy.diamond_built hknown sampleTable "x"
  obtain ⟨v, a, hv, ha, hown, -⟩ := hresolved ⟨0, hreaches, hroot⟩
  exact ⟨Hierarchy.diamond_built, hknown, hself, hroot, hright, hbase hself _ hright,
    v, a, hv, ha, hown⟩

end HandlerTable

end Delegation
