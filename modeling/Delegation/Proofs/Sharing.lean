import Delegation.Proofs.Forwarding
import Delegation.Proofs.Tenancy
/-!
# Attaching and detaching in shared scopes

In a scope that several classes are registered into, attaching an instance
binds the attributes of its class and unbinds that class's methods, and
detaching unbinds its class's attributes. Values under names that the class
has no member for stay as they are: they belong to other classes registered
there. So after attaching, only the new instance's values are bound exactly if
nothing was bound under such a name, and after detaching, nothing is bound
exactly if only attributes of the class were.
-/

namespace Delegation

/-- Every bound value is the one that an instance has for a public attribute of its class. -/
def Scope.BoundFrom (w : World) (isPublic : String → Bool) (c : ClassId) (i : InstanceId)
    (s : Scope) : Prop :=
  ∀ n x, s.get? n = some x → isPublic n = true ∧
    (∃ v, w.hierarchy.lookup? c n = some (.attribute v)) ∧ w.attribute? i n = some x

namespace Scope

variable {w : World} {isPublic : String → Bool} {c : ClassId} {names : List String} {n : String}

/-- Under a public name that means a method stands its delegate once all public names are
published. -/
theorem entry_publish_method (hnames : w.hierarchy.Lists isPublic c names) (s : Scope)
    (hpublic : isPublic n = true) {m : Method} (hn : w.hierarchy.lookup? c n = some (.method m)) :
    (names.foldl (place w c) s).entry n = (some (.ofMethod (w.hierarchy.name c) n m), none) := by
  rw [entry_foldl_place, if_pos (hnames.mem hpublic hn), World.published_of_method hn]

/-- Under a public name that means an attribute stands no delegate once all public names are
published, and the value shown, if there is one. -/
theorem entry_publish_attribute (hnames : w.hierarchy.Lists isPublic c names) (s : Scope)
    (hpublic : isPublic n = true) {v : Value}
    (hn : w.hierarchy.lookup? c n = some (.attribute v)) :
    (names.foldl (place w c) s).entry n = (none, (w.shown? c s.active n).or (s.get? n)) := by
  rw [entry_foldl_place, if_pos (hnames.mem hpublic hn), World.published_of_attribute hn,
    get?_eq_entry]

/-- Publishing all public names leaves what stands under a hidden name and under one without a
meaning. -/
theorem entry_publish_other (hnames : w.hierarchy.Lists isPublic c names) (s : Scope)
    (hn : isPublic n = true → w.hierarchy.lookup? c n = none) :
    (names.foldl (place w c) s).entry n = s.entry n := by
  rw [entry_foldl_place, if_neg (hnames.not_mem hn)]

/-- An attached instance shows its value for a public attribute. -/
theorem get?_attach_attribute (hnames : w.hierarchy.Lists isPublic c names) (s : Scope)
    {i : InstanceId} (hi : w.classOf? i = some c) (hpublic : isPublic n = true) {v : Value}
    (hn : w.hierarchy.lookup? c n = some (.attribute v)) :
    ∃ x, w.attribute? i n = some x ∧
      (names.foldl (place w c) (s.activate (some i))).get? n = some x := by
  obtain ⟨x, hx⟩ := World.exists_attribute hi hn
  have hshown : w.shown? c (s.activate (some i)).active n = some x :=
    (World.shown?_some hi n).trans hx
  refine ⟨x, hx, ?_⟩
  rw [get?_eq_entry, entry_publish_attribute hnames _ hpublic hn, hshown]
  rfl

end Scope

namespace Registry

variable {r : Registry} {w : World} {i : InstanceId} {c : ClassId} {reg : Registration}
  {h : ScopeHandle} {s : Scope}

/-- The scopes of a registration are found. -/
theorem Sound.exists_scope (hr : Sound r) (hc : r.registration? c = some reg)
    (hh : h ∈ reg.scopes) : ∃ s, r.scope? h = some s := by
  obtain ⟨hid, hlt⟩ := hr.issued c reg hc h hh
  exact ⟨r.scopes[h.index], scope?_eq_some.2 ⟨hid, List.getElem?_eq_getElem hlt⟩⟩

/-- What a scope of an instance's class becomes when the instance is attached. -/
theorem scope?_attach (hfound : r.registrationOf? w i = some (c, reg))
    (hk : h.index ∈ reg.scopes.map (·.index)) (hs : r.scope? h = some s) : (r.attach w i).scope? h =
      some ((r.publicNames w c).foldl (Scope.place w c) (s.activate (some i))) := by
  obtain ⟨hid, hold⟩ := scope?_eq_some.1 hs
  refine scope?_eq_some.2 ⟨hid.trans (layout_attach r w i).id.symm, ?_⟩
  rw [getElem?_scopes_attach hfound, if_pos hk, hold]
  rfl

/-- What a scope of an instance's class becomes when the instance is detached. -/
theorem scope?_detach (hfound : r.registrationOf? w i = some (c, reg))
    (hk : h.index ∈ reg.scopes.map (·.index)) (hs : r.scope? h = some s) : (r.detach w i).scope? h =
      some (reg.exposed.toList.foldl Scope.unbind (s.activate none)) := by
  obtain ⟨hid, hold⟩ := scope?_eq_some.1 hs
  refine scope?_eq_some.2 ⟨hid.trans (layout_detach r w i).id.symm, ?_⟩
  rw [getElem?_scopes_detach hfound, if_pos hk, hold]
  rfl

end Registry

/-- Without an active instance a delegate that takes its arguments reports the missing instance. -/
theorem Registry.callVia_of_prepare {r : Registry} {w : World} {h : ScopeHandle} {s : Scope}
    (hs : r.scope? h = some s) (hactive : s.active = none) {n : String} {d : Delegate}
    (hd : s.delegate? n = some d) {a handed : Arguments} (ha : d.prepare a = .ok handed)
    (run : Runner) :
    r.callVia run w h n a = (w, .error (.call (.notEstablished d.className d.name))) := by
  have hresolve : s.resolve w n a = .error (.notEstablished d.className d.name) := by
    simp only [Scope.resolve, hd, Delegate.resolve, ha, hactive]
  exact (Registry.callVia_eq_of_resolve hs hresolve).2 run

namespace Stage

variable {st : Stage} {c : ClassId} {h : ScopeHandle} {s : Scope}

/-- A value under a name that the class has no attribute for belongs to another class registered
into the scope. -/
theorem Reachable.other_owner (reach : Reachable .unwatched st)
    (hs : st.registry.scope? h = some s) {n : String}
    (hn : ∀ v, st.world.hierarchy.lookup? c n ≠ some (.attribute v)) (hbound : s.get? n ≠ none) :
    st.registry.isPublic n = true ∧ ∃ d, d ≠ c ∧ st.registry.Hosts d h.index ∧
      ∃ v, st.world.hierarchy.lookup? d n = some (.attribute v) := by
  obtain ⟨hpublic, d, hd, v, hv⟩ :=
    reach.owned h.index s (Registry.scope?_eq_some.1 hs).2 n hbound
  refine ⟨hpublic, d, ?_, hd, v, hv⟩
  rintro rfl
  exact hn v hv

/-- The sample world with a second class, one of whose methods has the name of the first one's
attribute, and one instance of it. -/
def sharedWorld : World where
  hierarchy := ⟨sampleWorld.hierarchy.classes ++ [⟨"Chart", [], [],
    .ofEntries [("legend", .attribute (.str "north")), ("level", .method sampleMethod)]⟩]⟩
  instances := [⟨0, ∅, none⟩, ⟨1, ∅, none⟩]
  journals := ∅

/-- The second class is not registered yet, and the instance of the first one is attached. -/
def beside : Stage := ⟨sharedWorld, sample.registry⟩

/-- The registry with the second class registered into the same scope. -/
def sharedRegistered : Registry :=
  (sample.registry.register sharedWorld 1 sampleHandle).toOption.getD sample.registry

/-- Both classes are registered into one scope, and the instance of the second one is attached. -/
def shared : Stage := ⟨sharedWorld, sharedRegistered.attach sharedWorld 1⟩

/-- A second class can be declared beside the first one, and an instance of it created. -/
theorem beside_reachable (licence : Licence) : Reachable licence beside := by
  have hdeclare : sampleWorld.declareClass "Chart" []
      (.ofEntries [("legend", .attribute (.str "north")), ("level", .method sampleMethod)]) =
      .ok { sharedWorld with instances := sampleWorld.instances } := by
    simp [World.declareClass, Hierarchy.declare, Ancestry.ancestors?_nil, Except.map, sharedWorld,
      sampleWorld]
  have hclass : Reachable licence
      ⟨{ sharedWorld with instances := sampleWorld.instances }, sample.registry⟩ :=
    (sample_reachable licence).step (.change (.declare (by simp) hdeclare))
  exact hclass.step (.change (.create ⟨1, ∅, none⟩ (by decide)))

/-- The stage with both classes in one scope is one of a run, whatever other code may do. -/
theorem shared_reachable (licence : Licence) : Reachable licence shared := by
  have hregister : beside.registry.register sharedWorld 1 sampleHandle = .ok sharedRegistered :=
    rfl
  have hregistered : Reachable licence ⟨sharedWorld, sharedRegistered⟩ :=
    (beside_reachable licence).step (.register (by decide) hregister)
  exact hregistered.step (.attach 1)

/-- What is known of the two classes at that stage. -/
theorem shared_registration :
    shared.registry.registration? 0 =
        some ⟨Std.ExtTreeSet.insert ∅ "level", [sampleHandle]⟩ ∧
      shared.registry.registration? 1 =
        some ⟨Std.ExtTreeSet.insert ∅ "legend", [sampleHandle]⟩ := by
  decide +kernel

/-- At every stage of a run that leaves registered classes and their ancestors to the registry,
attaching an instance makes it the active one in every scope of its class's registration. Under the
public attributes of the class its values are bound then, under the public methods none, and under
names that the class has no member for whatever was bound before, which belongs to other classes
registered there. So the instance's values are all that is bound exactly if nothing was bound under
a name that its class has no member for. -/
theorem attach_rebinds_own_names (reach : Reachable .unwatched st) {i : InstanceId}
    {reg : Registration} (hi : st.world.classOf? i = some c)
    (hreg : st.registry.registration? c = some reg) (hh : h ∈ reg.scopes) :
    ∃ s s', st.registry.scope? h = some s ∧
      (st.registry.attach st.world i).scope? h = some s' ∧ s'.active = some i ∧
      (∀ n v, st.registry.isPublic n = true →
        st.world.hierarchy.lookup? c n = some (.attribute v) →
          ∃ x, st.world.attribute? i n = some x ∧ s'.get? n = some x) ∧
      (∀ n m, st.registry.isPublic n = true →
        st.world.hierarchy.lookup? c n = some (.method m) → s'.get? n = none) ∧
      (∀ n, st.world.hierarchy.lookup? c n = none → s'.get? n = s.get? n ∧
        (s.get? n ≠ none → st.registry.isPublic n = true ∧
          ∃ d, d ≠ c ∧ st.registry.Hosts d h.index ∧
            ∃ v, st.world.hierarchy.lookup? d n = some (.attribute v))) ∧
      (s'.BoundFrom st.world st.registry.isPublic c i ↔
        ∀ n, s.get? n ≠ none → st.world.hierarchy.lookup? c n ≠ none) := by
  obtain ⟨s, hs⟩ := reach.sound.exists_scope hreg hh
  have hs' := Registry.scope?_attach (Registry.registrationOf?_eq_some.2 ⟨hi, hreg⟩)
    (List.mem_map_of_mem hh) hs
  have hnames : st.world.hierarchy.Lists st.registry.isPublic c
      (st.registry.publicNames st.world c) := fun _ => Registry.mem_publicNames
  generalize hattached : (st.registry.publicNames st.world c).foldl (Scope.place st.world c)
    (s.activate (some i)) = s' at hs'
  have hattribute : ∀ n v, st.registry.isPublic n = true →
      st.world.hierarchy.lookup? c n = some (.attribute v) →
        ∃ x, st.world.attribute? i n = some x ∧ s'.get? n = some x := fun n v hpublic hn =>
    hattached ▸ Scope.get?_attach_attribute hnames s hi hpublic hn
  have hmethod : ∀ n m, st.registry.isPublic n = true →
      st.world.hierarchy.lookup? c n = some (.method m) → s'.get? n = none := by
    intro n m hpublic hn
    rw [← hattached, Scope.get?_eq_entry, Scope.entry_publish_method hnames _ hpublic hn]
  have hother : ∀ n, (st.registry.isPublic n = true → st.world.hierarchy.lookup? c n = none) →
      s'.get? n = s.get? n := by
    intro n hn
    rw [← hattached, Scope.get?_eq_entry, Scope.entry_publish_other hnames _ hn]
    rfl
  refine ⟨s, s', hs, hs', ?active, hattribute, hmethod, ?kept, ?only, ?all⟩
  case active =>
    rw [← hattached, Scope.active_foldl_place]
    rfl
  case kept =>
    intro n hn
    refine ⟨hother n fun _ => hn, reach.other_owner hs fun v hv => ?_⟩
    rw [hn] at hv
    cases hv
  case only =>
    intro honly n hbound hn
    obtain ⟨x, hx⟩ := Option.ne_none_iff_exists'.1 hbound
    obtain ⟨-, ⟨v, hv⟩, -⟩ := honly n x ((hother n fun _ => hn).trans hx)
    rw [hn] at hv
    cases hv
  case all =>
    intro hmeans n x hx
    have hpublic : st.registry.isPublic n = true := by
      -- under a hidden name nothing changes, and nothing was bound
      by_contra hhidden
      rw [hother n fun hpublic => absurd hpublic hhidden] at hx
      have hbound : s.get? n ≠ none := hx ▸ Option.some_ne_none x
      exact hhidden (reach.owned h.index s (Registry.scope?_eq_some.1 hs).2 n hbound).1
    rcases st.world.hierarchy.lookup?_cases c n with hn | ⟨m, hn⟩ | ⟨v, hn⟩
    · rw [hother n fun _ => hn] at hx
      exact absurd hn (hmeans n (hx ▸ Option.some_ne_none x))
    · rw [hmethod n m hpublic hn] at hx
      cases hx
    · obtain ⟨y, hy, hget⟩ := hattribute n v hpublic hn
      exact ⟨hpublic, ⟨v, hn⟩, hy.trans (hget.symm.trans hx)⟩

/-- An instance of the first class is attached where one of the second is active. -/
theorem attach_rebinds_own_names_sample :
    shared.world.classOf? 0 = some 0 ∧
      shared.registry.registration? 0 =
        some ⟨Std.ExtTreeSet.insert ∅ "level", [sampleHandle]⟩ ∧
      ∃ s', (shared.registry.attach shared.world 0).scope? sampleHandle = some s' ∧
        s'.active = some 0 ∧
        ∃ x, shared.world.attribute? 0 "level" = some x ∧ s'.get? "level" = some x := by
  have hlevel : shared.world.hierarchy.lookup? 0 "level" = some (.attribute (.int 3)) := rfl
  have hi : shared.world.classOf? 0 = some 0 := rfl
  obtain ⟨s, s', -, hs', hactive, hattribute, -⟩ :=
    attach_rebinds_own_names (shared_reachable .unwatched) hi shared_registration.1
      List.mem_cons_self
  exact ⟨hi, shared_registration.1, s', hs', hactive,
    hattribute "level" (.int 3) (by decide +kernel) hlevel⟩

/-- A value of the instance of the second class can still be read after one of the first class,
which has no such attribute, took its place. -/
theorem attach_keeps_value_of_other_class :
    Reachable .unwatched shared ∧ shared.world.classOf? 0 = some 0 ∧
      shared.registry.registration? 0 =
        some ⟨Std.ExtTreeSet.insert ∅ "level", [sampleHandle]⟩ ∧
      ∃ s', (shared.registry.attach shared.world 0).scope? sampleHandle = some s' ∧
        s'.active = some 0 ∧ s'.get? "legend" = some (.str "north") ∧
        shared.world.hierarchy.lookup? 0 "legend" = none ∧
        ¬ s'.BoundFrom shared.world shared.registry.isPublic 0 0 := by
  have hmeans : shared.world.hierarchy.lookup? 0 "legend" = none := by
    decide +kernel
  have hlegend : ((shared.registry.attach shared.world 0).scope? sampleHandle).map
      (fun s' => (s'.active, s'.get? "legend")) = some (some 0, some (.str "north")) := by
    decide +kernel
  obtain ⟨s', hs', hread⟩ := Option.map_eq_some_iff.1 hlegend
  obtain ⟨hactive, hget⟩ := Prod.mk.inj hread
  refine ⟨shared_reachable .unwatched, rfl, shared_registration.1, s', hs', hactive, hget, hmeans,
    fun honly => ?_⟩
  obtain ⟨-, ⟨v, hv⟩, -⟩ := honly "legend" _ hget
  rw [hmeans] at hv
  cases hv

/-- At every stage of a run that leaves registered classes and their ancestors to the registry,
detaching an instance leaves no active instance in any scope of its class's registration. The
delegates stay, and each reports the missing instance for arguments it takes. Under the public
attributes of the class nothing is bound then, and under other names whatever was bound before,
which belongs to other classes registered there. So nothing at all is bound exactly if only
attributes of the class were. -/
theorem detach_unbinds_own_names (reach : Reachable .unwatched st) {i : InstanceId}
    {reg : Registration} (hi : st.world.classOf? i = some c)
    (hreg : st.registry.registration? c = some reg) (hh : h ∈ reg.scopes) :
    ∃ s s', st.registry.scope? h = some s ∧
      (st.registry.detach st.world i).scope? h = some s' ∧ s'.active = none ∧
      (∀ n, s'.delegate? n = s.delegate? n) ∧
      (∀ n d a handed, s'.delegate? n = some d → d.prepare a = .ok handed → ∀ run,
        (st.registry.detach st.world i).callVia run st.world h n a =
          (st.world, .error (.call (.notEstablished d.className n)))) ∧
      (∀ n v, st.registry.isPublic n = true →
        st.world.hierarchy.lookup? c n = some (.attribute v) → s'.get? n = none) ∧
      (∀ n, (∀ v, st.world.hierarchy.lookup? c n ≠ some (.attribute v)) →
        s'.get? n = s.get? n ∧ (s.get? n ≠ none → st.registry.isPublic n = true ∧
          ∃ d, d ≠ c ∧ st.registry.Hosts d h.index ∧
            ∃ v, st.world.hierarchy.lookup? d n = some (.attribute v))) ∧
      ((∀ n, s'.get? n = none) ↔
        ∀ n, s.get? n ≠ none → ∃ v, st.world.hierarchy.lookup? c n = some (.attribute v)) := by
  obtain ⟨s, hs⟩ := reach.sound.exists_scope hreg hh
  have hs' := Registry.scope?_detach (Registry.registrationOf?_eq_some.2 ⟨hi, hreg⟩)
    (List.mem_map_of_mem hh) hs
  have hexposed := reach.inStep.exposed c reg hreg
  generalize hdetached : reg.exposed.toList.foldl Scope.unbind (s.activate none) = s' at hs'
  have hactive : s'.active = none := by
    rw [← hdetached, Scope.active_foldl_unbind]
    rfl
  have hdelegate : ∀ n, s'.delegate? n = s.delegate? n := by
    intro n
    rw [← hdetached, Scope.delegate?_foldl_unbind]
    rfl
  have hget : ∀ n, s'.get? n = if n ∈ reg.exposed then none else s.get? n := by
    intro n
    rw [← hdetached, Scope.get?_foldl_unbind]
    simp only [Std.ExtTreeSet.mem_toList]
    rfl
  have hown : ∀ n v, st.registry.isPublic n = true →
      st.world.hierarchy.lookup? c n = some (.attribute v) → s'.get? n = none := by
    intro n v hpublic hn
    rw [hget, if_pos ((hexposed n).2 ⟨hpublic, v, hn⟩)]
  have hother : ∀ n, (∀ v, st.world.hierarchy.lookup? c n ≠ some (.attribute v)) →
      s'.get? n = s.get? n := by
    intro n hn
    rw [hget, if_neg]
    intro hmem
    obtain ⟨-, v, hv⟩ := (hexposed n).1 hmem
    exact hn v hv
  refine ⟨s, s', hs, hs', hactive, hdelegate, ?calls, hown, ?kept, ?none, ?all⟩
  case calls =>
    intro n d a handed hd ha run
    have hname : d.name = n := reach.name_delegate hs ((hdelegate n).symm.trans hd)
    rw [Registry.callVia_of_prepare hs' hactive hd ha run, hname]
  case kept =>
    intro n hn
    exact ⟨hother n hn, reach.other_owner hs hn⟩
  case none =>
    intro hnone n hbound
    by_contra hn
    exact hbound ((hother n fun v hv => hn ⟨v, hv⟩).symm.trans (hnone n))
  case all =>
    intro hmeans n
    by_contra hbound
    have hold : s.get? n ≠ none := by
      intro hnone
      rw [hget, hnone] at hbound
      exact hbound (ite_self none)
    obtain ⟨v, hv⟩ := hmeans n hold
    have hpublic := (reach.owned h.index s (Registry.scope?_eq_some.1 hs).2 n hold).1
    exact hbound (hown n v hpublic hv)

/-- The active instance is detached; the delegate that stands there reports it missing. -/
theorem detach_unbinds_own_names_sample :
    shared.world.classOf? 1 = some 1 ∧
      shared.registry.registration? 1 =
        some ⟨Std.ExtTreeSet.insert ∅ "legend", [sampleHandle]⟩ ∧
      ∃ s', (shared.registry.detach shared.world 1).scope? sampleHandle = some s' ∧
        s'.active = none ∧ s'.get? "legend" = none ∧
        ∀ run, (shared.registry.detach shared.world 1).callVia run shared.world sampleHandle
            "level" ⟨[.str "Ada"], ∅⟩ =
          (shared.world, .error (.call (.notEstablished "Chart" "level"))) := by
  have hlegend : shared.world.hierarchy.lookup? 1 "legend" =
      some (.attribute (.str "north")) := rfl
  have hdelegate : ((shared.registry.detach shared.world 1).scope? sampleHandle).bind
      (·.delegate? "level") = some (.ofMethod "Chart" "level" sampleMethod) := by
    decide +kernel
  have hbind : sampleMethod.signature.bind ⟨[.str "Ada"], ∅⟩ =
      .ok ⟨[("guest", .str "Ada"), ("times", .int 1)], [], ∅⟩ := by
    decide +kernel
  have hi : shared.world.classOf? 1 = some 1 := rfl
  obtain ⟨s, s', -, hs', hactive, -, hcalls, hown, -⟩ :=
    detach_unbinds_own_names (shared_reachable .unwatched) hi shared_registration.2
      List.mem_cons_self
  have hd : s'.delegate? "level" = some (.ofMethod "Chart" "level" sampleMethod) := by
    rwa [hs'] at hdelegate
  obtain ⟨handed, hhanded⟩ : ∃ handed, (Delegate.ofMethod "Chart" "level" sampleMethod).prepare
      ⟨[.str "Ada"], ∅⟩ = .ok handed := by
    rw [Delegate.prepare_ofMethod rfl, hbind]
    exact ⟨_, rfl⟩
  exact ⟨hi, shared_registration.2, s', hs', hactive,
    hown "legend" (.str "north") (by decide +kernel) hlegend,
    hcalls "level" _ _ handed hd hhanded⟩

/-- Detaching the instance of the first class while the one of the second is active leaves no
active instance, and a value that can still be read. -/
theorem detach_keeps_value_of_other_class :
    Reachable .unwatched shared ∧ shared.world.classOf? 0 = some 0 ∧
      shared.registry.registration? 0 =
        some ⟨Std.ExtTreeSet.insert ∅ "level", [sampleHandle]⟩ ∧
      Reachable .unwatched ⟨shared.world, shared.registry.detach shared.world 0⟩ ∧
      ∃ s', (shared.registry.detach shared.world 0).scope? sampleHandle = some s' ∧
        s'.active = none ∧ s'.get? "legend" = some (.str "north") := by
  have hlegend : ((shared.registry.detach shared.world 0).scope? sampleHandle).map
      (fun s' => (s'.active, s'.get? "legend")) = some (none, some (.str "north")) := by
    decide +kernel
  obtain ⟨s', hs', hread⟩ := Option.map_eq_some_iff.1 hlegend
  obtain ⟨hactive, hget⟩ := Prod.mk.inj hread
  exact ⟨shared_reachable .unwatched, rfl, shared_registration.1,
    (shared_reachable .unwatched).step (.detach 0), s', hs', hactive, hget⟩

end Stage

end Delegation
