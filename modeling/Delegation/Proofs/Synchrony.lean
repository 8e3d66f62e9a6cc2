import Delegation.Proofs.Shown
import Delegation.Proofs.Stage
/-!
# Scopes in step with their class

The invariant of a run in which the members of registered classes and of their
ancestors change through the registry only: a scope that one class is
registered into shows that class, a scope that none is registered into is
blank, and the exposed names of a class are its public attributes. Every
operation of the registry keeps it, and so does whatever else happens to the
world.
-/

namespace Delegation

namespace Stage

/-- Scopes and exposed names are in step with the classes. -/
structure InStep (st : Stage) : Prop where
  /-- Registered classes were declared. -/
  known : ∀ c reg, st.registry.registration? c = some reg → st.world.hierarchy.Knows c
  /-- The exposed names of a class are its public attributes. -/
  exposed : ∀ c reg, st.registry.registration? c = some reg →
    Registration.Exact st.world.hierarchy st.registry.isPublic c reg.exposed
  /-- A scope that no class is registered into is blank. -/
  blank : ∀ k s, st.registry.scopes[k]? = some s → (∀ c, ¬ st.registry.Hosts c k) → s.Blank
  /-- A scope that one class is registered into shows it. -/
  shows : ∀ k s c, st.registry.scopes[k]? = some s →
    (∀ d, st.registry.Hosts d k ↔ d = c) → s.Shows st.world st.registry.isPublic c

/-- Nothing is out of step at the start. -/
theorem inStep_start (id : Nat) (hiddenMark : String) :
    InStep ⟨.empty, .empty id hiddenMark⟩ where
  known c reg h := by simp [Registry.registration?, Registry.empty] at h
  exposed c reg h := by simp [Registry.registration?, Registry.empty] at h
  blank k s h := by simp [Registry.empty] at h
  shows k s c h := by simp [Registry.empty] at h

namespace InStep

variable {w w' : World} {r r' : Registry}

/-- All is in step with a later world after the scopes and the exposed names changed, if the same
classes are registered into the same scopes, scopes without a class stay, scopes with one class
show it in the later world, and the exposed names are exact there. -/
theorem of_layout (h : InStep ⟨w, r⟩) (hlayout : r.Layout r') (hw : w.Extends w')
    (hscopes : ∀ k s', r'.scopes[k]? = some s' → ∃ s, r.scopes[k]? = some s ∧
      ((∀ c, ¬ r.Hosts c k) → s' = s) ∧
      ∀ c, (∀ d, r.Hosts d k ↔ d = c) → s.Shows w r.isPublic c → s'.Shows w' r.isPublic c)
    (hexposed : ∀ c reg, r'.registration? c = some reg →
      Registration.Exact w'.hierarchy r.isPublic c reg.exposed) : InStep ⟨w', r'⟩ where
  known c reg hc := by
    obtain ⟨old, hold, -⟩ := hlayout.exists_registration hc
    exact hw.knows c (h.known c old hold)
  exposed c reg hc := by
    simp only [hlayout.isPublic]
    exact hexposed c reg hc
  blank k s' hs' hnone := by
    obtain ⟨s, hs, hkept, -⟩ := hscopes k s' hs'
    have hnobody : ∀ c, ¬ r.Hosts c k := fun c hc => hnone c (hlayout.hosts.2 hc)
    rw [hkept hnobody]
    exact h.blank k s hs hnobody
  shows k s' c hs' hsole := by
    obtain ⟨s, hs, -, hshows⟩ := hscopes k s' hs'
    have hold : ∀ d, r.Hosts d k ↔ d = c := fun d => hlayout.hosts.symm.trans (hsole d)
    simp only [hlayout.isPublic]
    exact hshows c hold (h.shows k s c hs hold)

/-- Whatever else happens to the world, all stays in step while the public names of registered
classes mean the same. -/
theorem of_extends (h : InStep ⟨w, r⟩) (hw : w.Extends w')
    (hsame : ∀ c reg, r.registration? c = some reg → ∀ n, r.isPublic n = true →
      w'.hierarchy.lookup? c n = w.hierarchy.lookup? c n) : InStep ⟨w', r⟩ := by
  refine h.of_layout (.refl r) hw (fun k s hs => ⟨s, hs, fun _ => rfl, fun c hsole hshows => ?_⟩)
    fun c reg hc => (h.exposed c reg hc).of_same (hsame c reg hc)
  obtain ⟨reg, hreg, -⟩ := (hsole c).2 rfl
  exact hshows.of_extends hw (h.known c reg hreg) (hsame c reg hreg)

/-- All stays in step when something happens to the world that leaves registered classes and their
ancestors alone. -/
theorem change (h : InStep ⟨w, r⟩) (hw : w.Closed)
    (hchange : World.Change (Licence.unwatched r w) w w') : InStep ⟨w', r⟩ := by
  refine h.of_extends hchange.extends fun c reg hc n _ => ?_
  refine hchange.lookup? hw (h.known c reg hc) (fun a ha => ha c ?_) n
  rw [hc]
  exact Option.some_ne_none reg

/-- All stays in step whatever happens to the world that leaves registered classes and their
ancestors alone. -/
theorem evolves (h : InStep ⟨w, r⟩) (hw : w.Closed)
    (hevolves : World.Evolves (Licence.unwatched r) w w') : InStep ⟨w', r⟩ := by
  induction hevolves with
  | refl => exact h
  | step before next ih => exact ih.change (before.closed hw) next

/-- All is in step when a scope was created. -/
theorem createScope (h : InStep ⟨w, r⟩) (hr : r.Sound) (name : String) :
    InStep ⟨w, (r.createScope name).1⟩ := by
  refine ⟨h.known, h.exposed, ?_, ?_⟩
  · intro k s hs hnone
    rcases Registry.scopes_createScope hs with hold | ⟨-, rfl⟩
    · exact h.blank k s hold hnone
    · exact Scope.blank_empty _ name
  · intro k s c hs hsole
    rcases Registry.scopes_createScope hs with hold | ⟨rfl, -⟩
    · exact h.shows k s c hold hsole
    · obtain ⟨reg, hreg, hk⟩ := (hsole c).2 rfl
      obtain ⟨handle, hhandle, hindex⟩ := List.mem_map.1 hk
      have hlt := (hr.issued c reg hreg handle hhandle).2
      omega

/-- All is in step when a class was registered. -/
theorem register (h : InStep ⟨w, r⟩) {c : ClassId} {handle : ScopeHandle}
    (hknown : w.hierarchy.Knows c) (e : r.register w c handle = .ok r') : InStep ⟨w, r'⟩ := by
  obtain ⟨-, hpublic, -⟩ := Registry.frame_register e
  have hnames : w.hierarchy.Lists r.isPublic c (r.publicNames w c) :=
    fun _ => Registry.mem_publicNames
  refine ⟨?known, ?exposed, ?blank, ?shows⟩
  case known =>
    intro d reg hd
    by_cases hdc : d = c
    · exact hdc ▸ hknown
    · simp only [Registry.registration?_register e, if_neg hdc] at hd
      exact h.known d reg hd
  case exposed =>
    intro d reg hd
    simp only [hpublic]
    by_cases hdc : d = c
    · subst hdc
      simp only [Registry.registration?_register e, if_true, Option.some.injEq] at hd
      subst hd
      refine Registration.Exact.foldl_exposing hnames fun n hn => ?_
      cases hold : r.registration? d with
      | none => simp [hold] at hn
      | some old =>
        rw [hold] at hn
        exact (h.exposed d old hold).mem_names hnames n hn
    · simp only [Registry.registration?_register e, if_neg hdc] at hd
      exact h.exposed d reg hd
  case blank =>
    intro k s hs hnone
    have hk : k ≠ handle.index := fun hk => hnone c ((Registry.hosts_register e).2 (.inr ⟨rfl, hk⟩))
    simp only [Registry.getElem?_scopes_register e, if_neg hk] at hs
    exact h.blank k s hs fun d hd => hnone d ((Registry.hosts_register e).2 (.inl hd))
  case shows =>
    intro k s d hs hsole
    have hold : ∀ d', r.Hosts d' k → d' = d := fun d' hd' =>
      (hsole d').1 ((Registry.hosts_register e).2 (.inl hd'))
    simp only [hpublic]
    by_cases hk : k = handle.index
    · obtain rfl : c = d := (hsole c).1 ((Registry.hosts_register e).2 (.inr ⟨rfl, hk⟩))
      simp only [Registry.getElem?_scopes_register e, if_pos hk] at hs
      obtain ⟨old, hfound, rfl⟩ := Option.map_eq_some_iff.1 hs
      -- the class may have been registered there before; if not, no class was
      by_cases hhosts : r.Hosts c k
      · have hshows : old.Shows w r.isPublic c := h.shows k old c hfound fun d' =>
          ⟨hold d', fun hd' => hd' ▸ hhosts⟩
        exact hshows.publish hnames
      · have hblank : old.Blank := h.blank k old hfound fun d' hd' => hhosts (hold d' hd' ▸ hd')
        exact hblank.publish hnames
    · simp only [Registry.getElem?_scopes_register e, if_neg hk] at hs
      refine h.shows k s d hs fun d' => ?_
      rw [← hsole d', Registry.hosts_register e]
      simp [hk]

/-- All stays in step when the scopes of a registration are changed into ones that show the same
class, and the exposed names stay exact. -/
theorem of_changed (h : InStep ⟨w, r⟩) (hlayout : r.Layout r') {c : ClassId} {reg : Registration}
    (hc : r.registration? c = some reg) {f : Scope → Scope}
    (hf : ∀ s, s.Shows w r.isPublic c → (f s).Shows w r.isPublic c)
    (hscopes : ∀ k, r'.scopes[k]? =
      if k ∈ reg.scopes.map (·.index) then r.scopes[k]?.map f else r.scopes[k]?)
    (hexposed : ∀ d reg, r'.registration? d = some reg →
      Registration.Exact w.hierarchy r.isPublic d reg.exposed) : InStep ⟨w, r'⟩ := by
  refine h.of_layout hlayout (.refl w) (fun k s' hs' => ?_) hexposed
  rw [hscopes] at hs'
  by_cases hk : k ∈ reg.scopes.map (·.index)
  · rw [if_pos hk] at hs'
    obtain ⟨s, hs, rfl⟩ := Option.map_eq_some_iff.1 hs'
    have hhosts : r.Hosts c k := ⟨reg, hc, hk⟩
    refine ⟨s, hs, fun hnone => absurd hhosts (hnone c), fun d hsole hshows => ?_⟩
    obtain rfl : c = d := (hsole c).1 hhosts
    exact hf s hshows
  · rw [if_neg hk] at hs'
    exact ⟨s', hs', fun _ => rfl, fun _ _ hshows => hshows⟩

/-- All is in step when an instance was attached. -/
theorem attach (h : InStep ⟨w, r⟩) (hr : r.Sound) (i : InstanceId) :
    InStep ⟨w, r.attach w i⟩ := by
  cases hfound : r.registrationOf? w i with
  | none =>
    rw [Registry.attach_eq, hfound]
    exact h
  | some e =>
    obtain ⟨c, reg⟩ := e
    obtain ⟨hi, hc⟩ := Registry.registrationOf?_eq_some.1 hfound
    have hnames : w.hierarchy.Lists r.isPublic c (r.publicNames w c) :=
      fun _ => Registry.mem_publicNames
    refine h.of_changed (Registry.layout_attach r w i) hc (fun s hs => hs.attach hnames hi)
      (Registry.getElem?_scopes_attach hfound) fun d reg' hd => ?_
    rw [Registry.registration?_attach hr hfound] at hd
    by_cases hdc : d = c
    · rw [if_pos hdc] at hd
      cases hd
      subst hdc
      exact Registration.Exact.foldl_exposing hnames ((h.exposed d reg hc).mem_names hnames)
    · rw [if_neg hdc] at hd
      exact h.exposed d reg' hd

/-- All is in step when an instance was detached. -/
theorem detach (h : InStep ⟨w, r⟩) (hr : r.Sound) (i : InstanceId) :
    InStep ⟨w, r.detach w i⟩ := by
  cases hfound : r.registrationOf? w i with
  | none =>
    rw [Registry.detach_eq, hfound]
    exact h
  | some e =>
    obtain ⟨c, reg⟩ := e
    have hc := (Registry.registrationOf?_eq_some.1 hfound).2
    refine h.of_changed (Registry.layout_detach r w i) hc
      (fun s hs => hs.detach (h.exposed c reg hc)) (Registry.getElem?_scopes_detach hfound)
      fun d reg' hd => ?_
    rw [Registry.registration?_detach hr hfound] at hd
    exact h.exposed d reg' hd

/-- All is in step when a class may have gained a member and the registry was told. -/
theorem notifyIn (h : InStep ⟨w, r⟩) (hr : r.Sound) {order : List (ClassId × Registration)}
    (each : order.Perm r.registrations.toList) {c : ClassId} {name : String}
    (hw : w.Gains w' c name) : InStep ⟨w', r.notifyIn order w' c name⟩ := by
  by_cases hpublic : r.isPublic name = true
  · refine h.of_layout (Registry.layout_notifyIn each w' c name) hw.later (fun k s' hs' => ?_)
      fun d reg' hd => ?_
    · rw [Registry.getElem?_scopes_notifyIn hpublic] at hs'
      obtain ⟨s, hs, rfl⟩ := Option.map_eq_some_iff.1 hs'
      have hhosts : ∀ d ∈ Registry.visited w' c order k, r.Hosts d k := fun d hd =>
        ((Registry.mem_visited_iff_hosts each).1 hd).2
      refine ⟨s, hs, fun hnone => ?_, fun d hsole hshows => ?_⟩
      · have hnobody : Registry.visited w' c order k = [] :=
          List.eq_nil_iff_forall_not_mem.2 fun d hd => hnone d (hhosts d hd)
        rw [hnobody]
        rfl
      · obtain ⟨reg, hreg, hk⟩ := (hsole d).2 rfl
        refine hshows.foldl_place hw (h.known d reg hreg) hpublic
          (fun d' hd' => (hsole d').1 (hhosts d' hd')) fun hsub => ?_
        exact (Registry.mem_visited_iff_hosts each).2 ⟨hsub, reg, hreg, hk⟩
    · rw [Registry.registration?_notifyIn hr each hpublic] at hd
      obtain ⟨reg, hreg, rfl⟩ := Option.map_eq_some_iff.1 hd
      exact (h.exposed d reg hreg).notified hw (h.known d reg hreg) hpublic
  · rw [Registry.notifyIn_of_hidden hpublic]
    refine h.of_extends hw.later fun d reg hd n hn => ?_
    have hne : n ≠ name := fun heq => hpublic (heq ▸ hn)
    exact hw.same d (h.known d reg hd) n (.inl hne)

end InStep

variable {st : Stage}

/-- At every stage of every run that leaves registered classes and their ancestors to the registry,
all is in step. -/
theorem Reachable.inStep (reach : Reachable .unwatched st) : st.InStep := by
  induction reach with
  | start id hiddenMark => exact inStep_start id hiddenMark
  | step before next ih =>
    have hclosed := before.closed
    have hsound := before.sound
    cases next with
    | change h => exact ih.change hclosed h
    | call run h name a body => exact ih.evolves hclosed body
    | createScope name => exact ih.createScope hsound name
    | register known accepted => exact ih.register known accepted
    | notify each c name => exact ih.notifyIn hsound each (.refl _ c name)
    | addMember each c name m => exact ih.notifyIn hsound each (World.gains_setMember _ c name m)
    | attach i => exact ih.attach hsound i
    | detach i => exact ih.detach hsound i

/-- At every stage of every run that leaves registered classes and their ancestors to the registry,
a scope that exactly one class is registered into mirrors that class. Its active instance is one of
the class; under a public name that means a method stands the delegate for that method and no
value; under one that means an attribute stands no delegate, and a value exactly if there is an
active instance, namely that instance's; under any other name stands nothing. The exposed names of
the class are its public attributes. -/
theorem scope_mirrors_class (reach : Reachable .unwatched st) {h : ScopeHandle} {s : Scope}
    {c : ClassId} (hs : st.registry.scope? h = some s)
    (hsole : ∀ d, (∃ reg, st.registry.registration? d = some reg ∧ h ∈ reg.scopes) ↔ d = c) :
    (∀ i, s.active = some i → st.world.classOf? i = some c) ∧
    (∀ n m, st.registry.isPublic n = true →
      st.world.hierarchy.lookup? c n = some (.method m) →
        s.delegate? n = some (.ofMethod (st.world.hierarchy.name c) n m) ∧ s.get? n = none) ∧
    (∀ n v, st.registry.isPublic n = true →
      st.world.hierarchy.lookup? c n = some (.attribute v) →
        s.delegate? n = none ∧ (s.active = none → s.get? n = none) ∧
          ∀ i, s.active = some i → ∃ x, st.world.attribute? i n = some x ∧ s.get? n = some x) ∧
    (∀ n, (st.registry.isPublic n = true → st.world.hierarchy.lookup? c n = none) →
      s.delegate? n = none ∧ s.get? n = none) ∧
    ∀ reg, st.registry.registration? c = some reg → ∀ n, n ∈ reg.exposed ↔
      st.registry.isPublic n = true ∧
        ∃ v, st.world.hierarchy.lookup? c n = some (.attribute v) := by
  obtain ⟨hid, hk⟩ := Registry.scope?_eq_some.1 hs
  have hhosts : ∀ d, st.registry.Hosts d h.index ↔ d = c := by
    intro d
    rw [← hsole d]
    constructor
    · rintro ⟨reg, hreg, hmem⟩
      obtain ⟨handle, hhandle, hindex⟩ := List.mem_map.1 hmem
      have hissued := (reach.sound.issued d reg hreg handle hhandle).1
      obtain rfl : handle = h := by
        cases handle
        cases h
        cases hindex
        cases hissued.trans hid.symm
        rfl
      exact ⟨reg, hreg, hhandle⟩
    · rintro ⟨reg, hreg, hhandle⟩
      exact ⟨reg, hreg, List.mem_map_of_mem hhandle⟩
  have hshows := reach.inStep.shows h.index s c hk hhosts
  have hpublished : ∀ n, st.registry.isPublic n = true →
      s.entry n = st.world.published c s.active n (none, none) := by
    intro n hpublic
    rw [hshows.entry, if_pos hpublic]
  refine ⟨hshows.active, ?method, ?value, ?nothing, reach.inStep.exposed c⟩
  case method =>
    intro n m hpublic hn
    have hentry := hpublished n hpublic
    rw [World.published_of_method hn] at hentry
    exact Prod.mk.inj hentry
  case value =>
    intro n v hpublic hn
    have hentry := hpublished n hpublic
    rw [World.published_of_attribute hn, Option.or_none] at hentry
    obtain ⟨hdelegate, hget⟩ := Prod.mk.inj hentry
    refine ⟨hdelegate, fun hactive => ?_, fun i hactive => ?_⟩
    · rw [hget, hactive]
      rfl
    · have hi := hshows.active i hactive
      obtain ⟨x, hx⟩ := World.exists_attribute hi hn
      rw [hactive, World.shown?_some hi, hx] at hget
      exact ⟨x, hx, hget⟩
  case nothing =>
    intro n hn
    exact Prod.mk.inj (hshows.entry_of_meaningless hn)

/-- A scope with an active instance that shows a method and an attribute. -/
theorem scope_mirrors_class_sample :
    sample.registry.scope? sampleHandle = some sampleScope ∧
      (∀ d, (∃ reg, sample.registry.registration? d = some reg ∧ sampleHandle ∈ reg.scopes) ↔
        d = 0) ∧
      sampleScope.delegate? "welcome" = some (.ofMethod "Guide" "welcome" sampleMethod) ∧
      sampleScope.get? "welcome" = none ∧
      ∃ x, sample.world.attribute? 0 "level" = some x ∧ sampleScope.get? "level" = some x := by
  have hregistrations : sample.registry.registrations =
      Std.ExtTreeMap.insert ∅ 0 ⟨Std.ExtTreeSet.insert ∅ "level", [sampleHandle]⟩ := by
    decide +kernel
  have hsole : ∀ d, (∃ reg, sample.registry.registration? d = some reg ∧
      sampleHandle ∈ reg.scopes) ↔ d = 0 := by
    intro d
    rw [Registry.registration?, hregistrations, Std.ExtTreeMap.getElem?_insert]
    by_cases hd : d = 0
    · simp [hd]
    · simp [hd, Ne.symm hd]
  have hpublic : ∀ n ∈ ["welcome", "level"], sample.registry.isPublic n = true := by
    decide +kernel
  have hmethod : sample.world.hierarchy.lookup? 0 "welcome" = some (.method sampleMethod) := rfl
  have hattribute : sample.world.hierarchy.lookup? 0 "level" = some (.attribute (.int 3)) := rfl
  have hmirrors := scope_mirrors_class (sample_reachable .unwatched) sample_scope hsole
  obtain ⟨hdelegate, hget⟩ := hmirrors.2.1 "welcome" sampleMethod (hpublic _ (by simp)) hmethod
  have hvalue := (hmirrors.2.2.1 "level" (.int 3) (hpublic _ (by simp)) hattribute).2.2 0 rfl
  exact ⟨sample_scope, hsole, hdelegate, hget, hvalue⟩

end Stage

end Delegation
