import Delegation.Proofs.Sharing
/-!
# Registering a class beside an active instance

A class that is registered into a scope where an instance of another class is
active takes over the names of its own public methods, and leaves the instance
active. A call of a method that both classes have is the same as before if the
two methods take the same arguments, since a delegate looks its method up for
the active instance. What was taken over comes back when the instance is
attached again.
-/

namespace Delegation

/-- A scope has all that an active instance offers: the delegate of every public method of its
class and its value for every public attribute. -/
structure Scope.FullFor (w : World) (isPublic : String → Bool) (c : ClassId) (i : InstanceId)
    (s : Scope) : Prop where
  /-- The instance is active. -/
  active : s.active = some i
  /-- It is one of the class. -/
  classOf : w.classOf? i = some c
  /-- Every public method has its delegate. -/
  method : ∀ n m, isPublic n = true → w.hierarchy.lookup? c n = some (.method m) →
    s.delegate? n = some (.ofMethod (w.hierarchy.name c) n m)
  /-- Every public attribute has the instance's value. -/
  value : ∀ n v, isPublic n = true → w.hierarchy.lookup? c n = some (.attribute v) →
    ∃ x, w.attribute? i n = some x ∧ s.get? n = some x

/-- Delegates of methods that take the same arguments let the same body run. -/
theorem Delegate.resolve_ofMethod_congr {m m' : Method} (hsignature : m'.signature = m.signature)
    (hrenames : m'.renames = m.renames) (className className' name : String) (w : World)
    (i : InstanceId) (a : Arguments) :
    (ofMethod className' name m').resolve w (some i) a =
      (ofMethod className name m).resolve w (some i) a := by
  have hprepare :
      (ofMethod className' name m').prepare a = (ofMethod className name m).prepare a := by
    simp only [prepare, ofMethod, hsignature, hrenames]
    rfl
  simp only [resolve, hprepare, name_ofMethod]

namespace Registry

variable {r r' : Registry} {w : World} {i : InstanceId} {c : ClassId} {h : ScopeHandle} {s : Scope}

/-- A scope has all that an instance offers once the instance is attached. -/
theorem fullFor_attach (hi : w.classOf? i = some c) (hosts : r.Hosts c h.index)
    (hs : r.scope? h = some s) :
    ∃ s', (r.attach w i).scope? h = some s' ∧ s'.FullFor w r.isPublic c i := by
  obtain ⟨reg, hreg, hk⟩ := hosts
  have hnames : w.hierarchy.Lists r.isPublic c (r.publicNames w c) := fun _ => mem_publicNames
  refine ⟨_, scope?_attach (registrationOf?_eq_some.2 ⟨hi, hreg⟩) hk hs, ?_⟩
  constructor
  · rw [Scope.active_foldl_place]
    rfl
  · exact hi
  · intro n m hpublic hn
    exact congrArg Prod.fst (Scope.entry_publish_method hnames _ hpublic hn)
  · intro n v hpublic hn
    exact Scope.get?_attach_attribute hnames s hi hpublic hn

/-- A class can be registered into every scope of the registry, which publishes the class's public
names there. -/
theorem exists_register (hs : r.scope? h = some s) (w : World) (c : ClassId) :
    ∃ r', r.register w c h = .ok r' ∧
      r'.scope? h = some ((r.publicNames w c).foldl (Scope.place w c) s) := by
  obtain ⟨hid, hk⟩ := scope?_eq_some.1 hs
  have hslot : r.slot h = .ok h.index := if_pos ⟨hid, (List.getElem?_eq_some_iff.1 hk).1⟩
  obtain ⟨r', e⟩ : ∃ r', r.register w c h = .ok r' := by
    rw [register, hslot]
    exact ⟨_, rfl⟩
  refine ⟨r', e, scope?_eq_some.2 ⟨hid.trans (frame_register e).1.symm, ?_⟩⟩
  rw [getElem?_scopes_register e, if_pos rfl, hk]
  rfl

end Registry

namespace Stage

variable {st : Stage} {c d : ClassId} {i : InstanceId} {h : ScopeHandle} {s : Scope}

/-- At every stage of every run, a scope that has all that its active instance offers accepts any
other class. The instance stays active then. Names that the other class has no public member under
stand for what they stood for. Public attributes of the instance's class that are no methods of the
other one keep the instance's values. Calls of public methods of the instance's class that the
other one does not have, or has as methods that take the same arguments, let the same bodies run as
before. Public methods of the other class have its delegates. If the instance is attached again,
the scope has all that it offers again. -/
theorem register_beside_active (reach : Reachable .free st)
    (hs : st.registry.scope? h = some s)
    (hfull : s.FullFor st.world st.registry.isPublic c i) (hne : d ≠ c) :
    ∃ r' s', st.registry.register st.world d h = .ok r' ∧ r'.scope? h = some s' ∧
      s'.active = some i ∧
      (∀ n, (st.registry.isPublic n = true → st.world.hierarchy.lookup? d n = none) →
        s'.delegate? n = s.delegate? n ∧ s'.get? n = s.get? n) ∧
      (∀ n v, st.registry.isPublic n = true →
        st.world.hierarchy.lookup? c n = some (.attribute v) →
        (∀ m, st.world.hierarchy.lookup? d n ≠ some (.method m)) →
          ∃ x, st.world.attribute? i n = some x ∧ s'.get? n = some x) ∧
      (∀ n m, st.registry.isPublic n = true →
        st.world.hierarchy.lookup? c n = some (.method m) →
        (∀ k, st.world.hierarchy.lookup? d n = some k →
          ∃ m', k = .method m' ∧ m'.signature = m.signature ∧ m'.renames = m.renames) →
        ∀ a, r'.resolve st.world h n a = st.registry.resolve st.world h n a ∧
          ∀ run, r'.callVia run st.world h n a = st.registry.callVia run st.world h n a) ∧
      (∀ n m, st.registry.isPublic n = true →
        st.world.hierarchy.lookup? d n = some (.method m) →
          s'.delegate? n = some (.ofMethod (st.world.hierarchy.name d) n m) ∧
            s'.get? n = none) ∧
      ∃ s'', (r'.attach st.world i).scope? h = some s'' ∧
        s''.FullFor st.world st.registry.isPublic c i := by
  obtain ⟨r', e, hs'⟩ := Registry.exists_register hs st.world d
  have hnames : st.world.hierarchy.Lists st.registry.isPublic d
      (st.registry.publicNames st.world d) := fun _ => Registry.mem_publicNames
  generalize hpublished : (st.registry.publicNames st.world d).foldl (Scope.place st.world d) s =
    s' at hs'
  have hactive : s'.active = some i := by
    rw [← hpublished, Scope.active_foldl_place, hfull.active]
  have hother : ∀ n, (st.registry.isPublic n = true → st.world.hierarchy.lookup? d n = none) →
      s'.entry n = s.entry n := fun n hn =>
    hpublished ▸ Scope.entry_publish_other hnames s hn
  have hmethod : ∀ n m, st.registry.isPublic n = true →
      st.world.hierarchy.lookup? d n = some (.method m) →
        s'.entry n = (some (.ofMethod (st.world.hierarchy.name d) n m), none) :=
    fun n m hpublic hn => hpublished ▸ Scope.entry_publish_method hnames s hpublic hn
  refine ⟨r', s', e, hs', hactive, fun n hn => Prod.mk.inj (hother n hn), ?value, ?call,
    fun n m hpublic hn => Prod.mk.inj (hmethod n m hpublic hn), ?again⟩
  case value =>
    intro n v hpublic hn hno
    obtain ⟨x, hx, hget⟩ := hfull.value n v hpublic hn
    refine ⟨x, hx, ?_⟩
    rcases st.world.hierarchy.lookup?_cases d n with hd | ⟨m, hd⟩ | ⟨v', hd⟩
    · rw [Scope.get?_eq_entry, hother n fun _ => hd]
      exact hget
    · exact absurd hd (hno m)
    · -- the active instance is none of the other class, so nothing else is bound
      have hnot : st.world.shown? d s.active n = none := by
        rw [hfull.active, World.shown?, Option.bind_eq_bind, Option.bind_some, hfull.classOf,
          if_neg fun heq => hne (Option.some.inj heq).symm]
      rw [← hpublished, Scope.get?_eq_entry, Scope.entry_publish_attribute hnames s hpublic hd,
        hnot]
      exact hget
  case call =>
    intro n m hpublic hn hsame a
    have hold := hfull.method n m hpublic hn
    have hresolve : s'.resolve st.world n a = s.resolve st.world n a := by
      rcases hl : st.world.hierarchy.lookup? d n with _ | k
      · have hdelegate : s'.delegate? n = s.delegate? n :=
          (Prod.mk.inj (hother n fun _ => hl)).1
        simp only [Scope.resolve, hdelegate, hold, hactive, hfull.active]
      · obtain ⟨m', rfl, hsignature, hrenames⟩ := hsame k hl
        have hdelegate := (Prod.mk.inj (hmethod n m' hpublic hl)).1
        simp only [Scope.resolve, hdelegate, hold, hactive, hfull.active]
        exact Delegate.resolve_ofMethod_congr hsignature hrenames _ _ n st.world i a
    obtain ⟨hafter, hcallsAfter⟩ := Registry.callVia_eq_of_resolve hs' hresolve
    obtain ⟨hbefore, hcallsBefore⟩ := Registry.callVia_eq_of_resolve hs (rfl : s.resolve _ n a = _)
    exact ⟨hafter.trans hbefore.symm, fun run => (hcallsAfter run).trans (hcallsBefore run).symm⟩
  case again =>
    obtain ⟨c', hc', hhosts⟩ :=
      reach.hosts_of_active (Registry.scope?_eq_some.1 hs).2 hfull.active
    obtain rfl : c = c' := Option.some.inj (hfull.classOf.symm.trans hc')
    have hstill : r'.Hosts c h.index := (Registry.hosts_register e).2 (.inl hhosts)
    rw [← (Registry.frame_register e).2.1]
    exact Registry.fullFor_attach hfull.classOf hstill hs'

/-- Beside the second class the scope has all that the instance of the first one offers. -/
theorem beside_full : sampleScope.FullFor beside.world beside.registry.isPublic 0 0 := by
  have hreg : beside.registry.registration? 0 =
      some ⟨Std.ExtTreeSet.insert ∅ "level", [sampleHandle]⟩ := by
    decide +kernel
  have hhosts : beside.registry.Hosts 0 sampleHandle.index := ⟨_, hreg, List.mem_singleton.2 rfl⟩
  have hagain : (beside.registry.attach beside.world 0).scope? sampleHandle = some sampleScope := by
    decide +kernel
  have hi : beside.world.classOf? 0 = some 0 := rfl
  obtain ⟨s', hs', hfull⟩ := Registry.fullFor_attach hi hhosts sample_scope
  obtain rfl : sampleScope = s' := Option.some.inj (hagain.symm.trans hs')
  exact hfull

/-- The second class is registered where the instance of the first one is active. -/
theorem register_beside_active_sample :
    sampleScope.FullFor beside.world beside.registry.isPublic 0 0 ∧
      ∃ r' s', beside.registry.register beside.world 1 sampleHandle = .ok r' ∧
        r'.scope? sampleHandle = some s' ∧ s'.active = some 0 ∧
        (∀ run a, r'.callVia run beside.world sampleHandle "welcome" a =
          beside.registry.callVia run beside.world sampleHandle "welcome" a) ∧
        s'.delegate? "level" = some (.ofMethod "Chart" "level" sampleMethod) ∧
        s'.get? "level" = none := by
  have hwelcome : beside.world.hierarchy.lookup? 0 "welcome" = some (.method sampleMethod) := rfl
  have hnot : beside.world.hierarchy.lookup? 1 "welcome" = none := by
    decide +kernel
  have hlevel : beside.world.hierarchy.lookup? 1 "level" = some (.method sampleMethod) := rfl
  have hne : (1 : ClassId) ≠ 0 := by decide
  obtain ⟨r', s', e, hs', hactive, -, -, hcalls, hmethods, -⟩ :=
    register_beside_active (beside_reachable .free) sample_scope beside_full hne
  refine ⟨beside_full, r', s', e, hs', hactive, fun run a => ?_,
    hmethods "level" sampleMethod (by decide +kernel) hlevel⟩
  refine (hcalls "welcome" sampleMethod (by decide +kernel) hwelcome ?_ a).2 run
  intro k hk
  rw [hnot] at hk
  cases hk

/-- A public attribute of the active instance can no longer be read after a class that has a method
of its name was registered into the scope. -/
theorem register_takes_shared_name :
    Reachable .free beside ∧ beside.registry.scope? sampleHandle = some sampleScope ∧
      sampleScope.FullFor beside.world beside.registry.isPublic 0 0 ∧ (1 : ClassId) ≠ 0 ∧
      beside.world.attribute? 0 "level" = some (.int 3) ∧
      ∃ r' s', beside.registry.register beside.world 1 sampleHandle = .ok r' ∧
        r'.scope? sampleHandle = some s' ∧ s'.active = some 0 ∧ s'.get? "level" = none ∧
        ¬ s'.FullFor beside.world r'.isPublic 0 0 := by
  have hattribute : beside.world.hierarchy.lookup? 0 "level" = some (.attribute (.int 3)) := rfl
  have hread : (sharedRegistered.scope? sampleHandle).map
      (fun s' => (s'.active, s'.get? "level")) = some (some 0, none) := by
    decide +kernel
  obtain ⟨s', hs', hentries⟩ := Option.map_eq_some_iff.1 hread
  obtain ⟨hactive, hget⟩ := Prod.mk.inj hentries
  refine ⟨beside_reachable .free, sample_scope, beside_full, by decide, by decide +kernel,
    sharedRegistered, s', rfl, hs', hactive, hget, fun hfull => ?_⟩
  obtain ⟨x, -, hx⟩ := hfull.value "level" _ (by decide +kernel) hattribute
  rw [hget] at hx
  cases hx

end Stage

end Delegation
