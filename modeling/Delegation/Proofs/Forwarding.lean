import Delegation.Proofs.Relay
import Delegation.Proofs.Resolution
import Delegation.Proofs.Stage
/-!
# Calls through a registry are direct calls

A delegate made from a method without renamed parameters binds the arguments,
spells what was bound again, looks the method up by its own name and lets the
method bind a second time. Every delegate in a scope of a run was made for the
name it stands under, so the look-up finds what the name means for the active
instance, and the second binding is the first one.
-/

namespace Delegation

namespace Delegate

variable {className name : String} {m : Method}

/-- Without renamed parameters the arguments are bound and spelled again. -/
theorem prepare_ofMethod (hm : m.renames.isEmpty = true) (a : Arguments) :
    (ofMethod className name m).prepare a =
      match m.signature.bind a with
      | .error e => .error (.binding e)
      | .ok b => .ok (Relay.Piece.arguments (Relay.ofSignature m.signature).inner b) := by
  have hrelay : (ofMethod className name m).relay = .ofSignature m.signature := if_pos hm
  have hrenames : (ofMethod className name m).renames = m.renames := rfl
  simp only [prepare, hrelay, hrenames, hm, if_true, Relay.prepare_ofSignature]
  cases m.signature.bind a <;> rfl

/-- Where the name means the method itself for the active instance, a call of its delegate lets
the same body run as a direct call. -/
theorem resolve_ofMethod (hm : m.renames.isEmpty = true) {w : World} {i : InstanceId}
    {c : ClassId} (hi : w.classOf? i = some c) (hn : w.hierarchy.lookup? c name = some (.method m))
    (a : Arguments) : (ofMethod className name m).resolve w (some i) a = w.resolve i name a := by
  have hdirect : ∀ a, w.resolve i name a = m.resolve i a := World.resolve_of_method hi hn
  unfold resolve
  rw [prepare_ofMethod hm, hdirect]
  cases hb : m.signature.bind a with
  | error e => simp only [Method.resolve, hb]
  | ok b =>
    have hagain := Relay.bind_arguments hb
    simp only [name_ofMethod, hdirect, Method.resolve, hb, hagain]

/-- Without an active instance arguments that do not fit come first, and the missing instance
after. -/
theorem resolve_ofMethod_none (hm : m.renames.isEmpty = true) (w : World) (a : Arguments) :
    (ofMethod className name m).resolve w none a =
      match m.signature.bind a with
      | .error e => .error (.binding e)
      | .ok _ => .error (.notEstablished className name) := by
  unfold resolve
  rw [prepare_ofMethod hm]
  cases m.signature.bind a <;> rfl

end Delegate

namespace Scope

/-- Every delegate was made from a method, for the name it stands under. -/
def Built (s : Scope) : Prop :=
  ∀ n d, s.delegate? n = some d → ∃ className m, d = .ofMethod className n m

/-- Publishing a name installs only delegates made for it. -/
theorem Built.place {s : Scope} (hs : s.Built) (w : World) (c : ClassId) (n : String) :
    (place w c s n).Built := by
  intro k d hk
  have hentry := congrArg Prod.fst (entry_place w c s n k)
  change (Scope.place w c s n).delegate? k = _ at hentry
  rw [hk] at hentry
  by_cases hkn : k = n
  · subst hkn
    rw [if_pos rfl] at hentry
    rcases w.hierarchy.lookup?_cases c k with h | ⟨m, h⟩ | ⟨v, h⟩
    · rw [World.published_of_none h] at hentry
      exact hs k d hentry.symm
    · rw [World.published_of_method h] at hentry
      exact ⟨w.hierarchy.name c, m, Option.some.inj hentry⟩
    · rw [World.published_of_attribute h] at hentry
      cases hentry
  · rw [if_neg hkn] at hentry
    exact hs k d hentry.symm

/-- Every operation on a scope keeps its delegates made for their names. -/
theorem kept_built : Kept Built where
  empty id name n d h := by simp [empty, delegate?] at h
  place w c s n hs := hs.place w c n
  activate s i hs := hs
  unbind s n hs := hs

end Scope

namespace Stage

variable {licence : Licence} {st : Stage}

/-- A delegate in a scope of a run has the name it stands under. -/
theorem Reachable.name_delegate (reach : Reachable licence st) {h : ScopeHandle} {s : Scope}
    (hs : st.registry.scope? h = some s) {n : String} {d : Delegate}
    (hd : s.delegate? n = some d) : d.name = n := by
  have hbuilt : s.Built := reach.scopes Scope.kept_built h.index s (Registry.scope?_eq_some.1 hs).2
  obtain ⟨className, m, rfl⟩ := hbuilt n d hd
  rfl

/-- At every stage of every run, a call of a delegate that was made from the method that its name
means for the active instance, without renamed parameters, is a direct call: the same body runs on
the same instance and the same binding, with the same effects and the same end, or none runs for
the same reason. Without an active instance no body runs; arguments that do not fit are reported
first, and the missing instance after. -/
theorem callVia_direct (reach : Reachable .free st) {h : ScopeHandle} {s : Scope}
    (hs : st.registry.scope? h = some s) {n className key : String} {m : Method}
    (hd : s.delegate? n = some (.ofMethod className key m)) (hm : m.renames.isEmpty = true)
    (a : Arguments) :
    (∀ i c, s.active = some i → st.world.classOf? i = some c →
      st.world.hierarchy.lookup? c n = some (.method m) →
        st.registry.resolve st.world h n a = (st.world.resolve i n a).mapError .call ∧
        ∀ run, st.registry.callVia run st.world h n a =
          ((st.world.callVia run i n a).1, (st.world.callVia run i n a).2.mapError .call)) ∧
    (s.active = none →
      (∀ e, m.signature.bind a = .error e →
        st.registry.resolve st.world h n a = .error (.call (.binding e)) ∧
        ∀ run, st.registry.callVia run st.world h n a =
          (st.world, .error (.call (.binding e)))) ∧
      ∀ b, m.signature.bind a = .ok b →
        st.registry.resolve st.world h n a = .error (.call (.notEstablished className n)) ∧
        ∀ run, st.registry.callVia run st.world h n a =
          (st.world, .error (.call (.notEstablished className n)))) := by
  obtain rfl : key = n := reach.name_delegate hs hd
  have hscope : s.resolve st.world key a =
      (Delegate.ofMethod className key m).resolve st.world s.active a := by
    simp only [Scope.resolve, hd]
  constructor
  · intro i c hactive hi hn
    rw [hactive, Delegate.resolve_ofMethod hm hi hn] at hscope
    simp only [World.callVia_eq]
    exact Registry.callVia_eq_of_resolve hs hscope
  · intro hactive
    rw [hactive, Delegate.resolve_ofMethod_none hm] at hscope
    constructor
    · intro e he
      rw [he] at hscope
      exact Registry.callVia_eq_of_resolve hs hscope
    · intro b hb
      rw [hb] at hscope
      exact Registry.callVia_eq_of_resolve hs hscope

/-- A call by scope and name that leaves the optional parameter out. -/
theorem callVia_direct_sample :
    sample.registry.scope? sampleHandle = some sampleScope ∧
      sampleScope.delegate? "welcome" = some (.ofMethod "Guide" "welcome" sampleMethod) ∧
      sampleScope.active = some 0 ∧
      sample.registry.resolve sample.world sampleHandle "welcome" ⟨[.str "Ada"], ∅⟩ =
        (sample.world.resolve 0 "welcome" ⟨[.str "Ada"], ∅⟩).mapError .call ∧
      ∀ run, sample.registry.callVia run sample.world sampleHandle "welcome" ⟨[.str "Ada"], ∅⟩ =
        ((sample.world.callVia run 0 "welcome" ⟨[.str "Ada"], ∅⟩).1,
          (sample.world.callVia run 0 "welcome" ⟨[.str "Ada"], ∅⟩).2.mapError .call) := by
  have hd : sampleScope.delegate? "welcome" =
      some (.ofMethod "Guide" "welcome" sampleMethod) := by
    decide +kernel
  have hn : sample.world.hierarchy.lookup? 0 "welcome" = some (.method sampleMethod) := rfl
  have h := callVia_direct (sample_reachable .free) sample_scope hd rfl ⟨[.str "Ada"], ∅⟩
  exact ⟨sample_scope, hd, rfl, h.1 0 0 rfl rfl hn⟩

end Stage

end Delegation
