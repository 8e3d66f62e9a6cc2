import Delegation.Proofs.Dispatch
import Delegation.Proofs.Tables
/-!
# Which resolutions a registration changes

A new handler answers for the qualifier that it is registered for. A default
one also answers for every qualifier that its class has no handler for. Where
it answers, it decides for the classes in whose chains its class stands behind
none that answers, so a default handler can take the place of a qualified one
that stands farther off. All other resolutions stay as they were.
-/

namespace Delegation

namespace HandlerTable

variable {η : Type} {t t' : HandlerTable η} {h : Hierarchy} {a b c : ClassId} {q p : String} {v : η}

/-- A handler registered for a class and a qualifier serves a wanted qualifier: it is the same one,
or the handler is a default one and the class has none for the wanted qualifier. -/
def Serves (t : HandlerTable η) (a : ClassId) (q p : String) : Prop :=
  q = p ∨ q = default ∧ t.contains a p = false

/-- A class stands in another one's chain behind none that answers for a qualifier. -/
def Foremost (t : HandlerTable η) (h : Hierarchy) (p : String) (a c : ClassId) : Prop :=
  ∃ before after, h.chain c = before ++ a :: after ∧ ∀ d ∈ before, ¬ t.Answers p d

/-- A class is foremost in a chain for a qualifier if it is foremost among those with a handler of
their own to answer with. -/
theorem foremost_iff :
    t.Foremost h p a c ↔ Ancestry.Foremost (t.ownHandler? p) a (h.chain c) := by
  simp only [Foremost, Ancestry.Foremost, not_answers_iff]

/-- A class that is foremost in a chain stands in it. -/
theorem Foremost.isSubclass (hforemost : t.Foremost h p a c) : h.isSubclass c a = true := by
  obtain ⟨before, after, hchain, -⟩ := hforemost
  rw [Hierarchy.isSubclass, hchain, List.contains_iff_mem]
  exact List.mem_append_right before List.mem_cons_self

/-- A registration succeeds exactly for a new key, and then puts the handler into the table. -/
theorem register_eq_ok {h₀ : Hierarchy} :
    t.register h₀ a q v = .ok t' ↔ t.contains a q = false ∧ t' = t.put a q v := by
  by_cases hkey : t.contains a q = true
  · rw [register, enter_of_contains hkey]
    simp [hkey, Except.map]
  · rw [register, enter_of_not_contains hkey]
    simp [hkey, Except.map, eq_comm]

/-- A handler put under one class leaves what the other classes answer with. -/
theorem ownHandler?_put_of_ne (hb : b ≠ a) (p : String) :
    (t.put a q v).ownHandler? p b = t.ownHandler? p b := by
  simp only [ownHandler?, get?_put, hb, false_and, if_false]

/-- Where a handler serves, its class answers with it. -/
theorem ownHandler?_put_of_serves (hserves : t.Serves a q p) :
    (t.put a q v).ownHandler? p a = some v := by
  rw [ownHandler?_eq_some, get?_put, get?_put]
  rcases hserves with rfl | ⟨rfl, hnone⟩
  · exact .inl (if_pos ⟨rfl, rfl⟩)
  · by_cases hp : p = default
    · exact .inl (if_pos ⟨rfl, hp⟩)
    · have hown : t.get? a p = none := by
        rwa [contains, Option.isSome_eq_false_iff, Option.isNone_iff_eq_none] at hnone
      refine .inr ⟨?_, if_pos ⟨rfl, rfl⟩⟩
      rw [if_neg fun hboth => hp hboth.2, hown]

/-- Where a handler does not serve, its class answers with what it answered with before. -/
theorem ownHandler?_put_of_not_serves (hnot : ¬ t.Serves a q p) :
    (t.put a q v).ownHandler? p a = t.ownHandler? p a := by
  rw [Serves, not_or, not_and] at hnot
  obtain ⟨hqualifier, hdefault⟩ := hnot
  have hown : (t.put a q v).get? a p = t.get? a p := by
    rw [get?_put, if_neg fun hboth => hqualifier hboth.2.symm]
  rw [ownHandler?, ownHandler?, hown]
  cases hp : t.get? a p with
  | some w => rfl
  | none =>
    -- the class has no handler for the wanted qualifier, so the new one is no default handler
    have hnew : q ≠ default := fun hq => hdefault hq (by rw [contains, hp]; rfl)
    rw [get?_put, if_neg fun hboth => hnew hboth.2.symm]

/-- A handler that serves decides where its class is foremost, and elsewhere the decision stays. -/
theorem resolve_put_of_serves (hserves : t.Serves a q p) (h : Hierarchy) (c : ClassId) :
    (t.Foremost h p a c → (t.put a q v).resolve h c p = .ok v) ∧
      (¬ t.Foremost h p a c → (t.put a q v).resolve h c p = t.resolve h c p) := by
  obtain ⟨hfound, hkept⟩ := Ancestry.findSome?_of_given
    (ownHandler?_put_of_serves (v := v) hserves)
    (fun b hb => ownHandler?_put_of_ne hb p) (h.chain c)
  rw [foremost_iff]
  constructor
  · intro hforemost
    rw [resolve, hfound hforemost]
  · intro hbehind
    rw [resolve, resolve, hkept hbehind]

/-- A handler that does not serve changes no decision. -/
theorem resolve_put_of_not_serves (hnot : ¬ t.Serves a q p) (h : Hierarchy) (c : ClassId) :
    (t.put a q v).resolve h c p = t.resolve h c p := by
  have hsame : (t.put a q v).ownHandler? p = t.ownHandler? p := by
    funext b
    by_cases hb : b = a
    · rw [hb, ownHandler?_put_of_not_serves hnot]
    · exact ownHandler?_put_of_ne hb p
  rw [resolve, resolve, hsame]

/-- After a handler was registered for a class and a qualifier, a wanted qualifier is resolved to it
for the classes in whose chains the registered class stands behind none that answers, if the
qualifier is the wanted one, or it is the default one and the registered class has no handler for
the wanted one. In all other cases a class is resolved as it was. So what was resolved still is, and
classes that do not descend from the registered one are resolved as they were. -/
theorem register_redirects {h₀ : Hierarchy} (registered : t.register h₀ a q v = .ok t')
    (h : Hierarchy) :
    (∀ c p, t.Serves a q p → t.Foremost h p a c → t'.resolve h c p = .ok v) ∧
    (∀ c p, ¬ (t.Serves a q p ∧ t.Foremost h p a c) → t'.resolve h c p = t.resolve h c p) ∧
    (∀ c p w, t.resolve h c p = .ok w → ∃ w', t'.resolve h c p = .ok w') ∧
    ∀ c, h.isSubclass c a = false → ∀ p, t'.resolve h c p = t.resolve h c p := by
  obtain ⟨-, rfl⟩ := register_eq_ok.1 registered
  have hdecides : ∀ c p, t.Serves a q p → t.Foremost h p a c →
      (t.put a q v).resolve h c p = .ok v :=
    fun c p hserves => (resolve_put_of_serves hserves h c).1
  have hkeeps : ∀ c p, ¬ (t.Serves a q p ∧ t.Foremost h p a c) →
      (t.put a q v).resolve h c p = t.resolve h c p := by
    intro c p hother
    by_cases hserves : t.Serves a q p
    · exact (resolve_put_of_serves hserves h c).2 fun hforemost => hother ⟨hserves, hforemost⟩
    · exact resolve_put_of_not_serves hserves h c
  refine ⟨hdecides, hkeeps, ?resolved, ?others⟩
  case resolved =>
    intro c p w hw
    by_cases hnew : t.Serves a q p ∧ t.Foremost h p a c
    · exact ⟨v, hdecides c p hnew.1 hnew.2⟩
    · exact ⟨w, (hkeeps c p hnew).trans hw⟩
  case others =>
    intro c hc p
    refine hkeeps c p fun hnew => ?_
    rw [hnew.2.isSubclass] at hc
    cases hc

/-- In the diamond a default handler of the first base takes the place of the qualified handler of
the shared base for the first base itself, and of the second base's default handler for the class at
the bottom. The second base is resolved as it was. -/
theorem register_redirects_diamond :
    sampleTable.register Hierarchy.diamond 1 default "left" =
        .ok (sampleTable.put 1 default "left") ∧
      sampleTable.Serves 1 default "x" ∧ sampleTable.Foremost Hierarchy.diamond "x" 1 3 ∧
      sampleTable.resolve Hierarchy.diamond 3 "x" = .ok "right" ∧
      (sampleTable.put 1 default "left").resolve Hierarchy.diamond 3 "x" = .ok "left" ∧
      sampleTable.resolve Hierarchy.diamond 1 "x" = .ok "root" ∧
      (sampleTable.put 1 default "left").resolve Hierarchy.diamond 1 "x" = .ok "left" ∧
      Hierarchy.diamond.isSubclass 2 1 = false ∧
      (sampleTable.put 1 default "left").resolve Hierarchy.diamond 2 "x" = .ok "right" := by
  have hresolve : ∀ c v, (Hierarchy.diamond.chain c).findSome? (sampleTable.ownHandler? "x") =
      some v → sampleTable.resolve Hierarchy.diamond c "x" = .ok v := by
    intro c v hfound
    rw [resolve, hfound]
  have hregistered : sampleTable.register Hierarchy.diamond 1 default "left" =
      .ok (sampleTable.put 1 default "left") := register_eq_ok.2 ⟨by decide +kernel, rfl⟩
  have hserves : sampleTable.Serves 1 default "x" := .inr ⟨rfl, by decide +kernel⟩
  have hbottom : ¬ sampleTable.Answers "x" 3 := not_answers_iff.2 (by decide +kernel)
  have hforemost : sampleTable.Foremost Hierarchy.diamond "x" 1 3 :=
    ⟨[3], [2, 0], by decide, fun d hd => List.mem_singleton.1 hd ▸ hbottom⟩
  have hself : sampleTable.Foremost Hierarchy.diamond "x" 1 1 :=
    ⟨[], [0], by decide, fun d hd => absurd hd List.not_mem_nil⟩
  have hsecond : Hierarchy.diamond.isSubclass 2 1 = false := by decide
  obtain ⟨hdecides, -, -, hothers⟩ := register_redirects hregistered Hierarchy.diamond
  exact ⟨hregistered, hserves, hforemost, hresolve 3 _ (by decide +kernel),
    hdecides 3 "x" hserves hforemost, hresolve 1 _ (by decide +kernel),
    hdecides 1 "x" hserves hself, hsecond,
    (hothers 2 hsecond "x").trans (hresolve 2 _ (by decide +kernel))⟩

end HandlerTable

end Delegation
