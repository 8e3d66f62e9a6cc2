import Delegation.Proofs.WellFormed
/-!
# What attaching an instance leaves

Whatever stood in the scopes of a class before, and whatever other code did to
the class in between: attaching an instance of it puts under each of the
class's public names what the class means by that name now. Methods stand as
delegates and are not exposed, attributes are bound to the instance's values
and are exposed. Names that are not the class's own, scopes that it is not
registered into and registrations of other classes stay as they are, and an
instance of a class that is not registered changes nothing at all.
-/

namespace Delegation

/-- A scope before and after an instance of a class was attached there. -/
structure Scope.Installed (w : World) (isPublic : String → Bool) (c : ClassId) (i : InstanceId)
    (s s' : Scope) : Prop where
  /-- The instance is the active one. -/
  active : s'.active = some i
  /-- The scope has the name it had. -/
  name : s'.name = s.name
  /-- Under a public method stands its delegate, and nothing is bound. -/
  methods : ∀ n m, isPublic n = true → w.hierarchy.lookup? c n = some (.method m) →
    s'.delegate? n = some (.ofMethod (w.hierarchy.name c) n m) ∧ s'.get? n = none
  /-- Under a public attribute stands no delegate, and the instance's value is bound. -/
  attributes : ∀ n v, isPublic n = true → w.hierarchy.lookup? c n = some (.attribute v) →
    s'.delegate? n = none ∧ ∃ x, w.attribute? i n = some x ∧ s'.get? n = some x
  /-- Under names that are not public ones of the class stands what stood there. -/
  others : ∀ n, (isPublic n = true → w.hierarchy.lookup? c n = none) →
    s'.delegate? n = s.delegate? n ∧ s'.get? n = s.get? n

/-- A registration before and after an instance of its class was attached. -/
structure Registration.Recounted (h : Hierarchy) (isPublic : String → Bool) (c : ClassId)
    (reg reg' : Registration) : Prop where
  /-- The class is registered into the scopes it was registered into. -/
  scopes : reg'.scopes = reg.scopes
  /-- A public method is not exposed. -/
  methods : ∀ n m, isPublic n = true → h.lookup? c n = some (.method m) → n ∉ reg'.exposed
  /-- A public attribute is exposed. -/
  attributes : ∀ n v, isPublic n = true → h.lookup? c n = some (.attribute v) → n ∈ reg'.exposed
  /-- Names that are not public ones of the class are exposed if they were. -/
  others : ∀ n, (isPublic n = true → h.lookup? c n = none) → (n ∈ reg'.exposed ↔ n ∈ reg.exposed)

section Listed

variable {w : World} {isPublic : String → Bool} {c : ClassId} {names : List String}

/-- Publishing all public names of a class installs an instance of it in a scope where it was made
the active one, whatever stood there. -/
theorem Scope.installed_publish (hnames : w.hierarchy.Lists isPublic c names) {i : InstanceId}
    (hi : w.classOf? i = some c) (s : Scope) :
    Installed w isPublic c i s (names.foldl (place w c) (s.activate (some i))) where
  active := active_foldl_place w c names _
  name := name_foldl_place w c names _
  methods n m hpublic hn := Prod.mk.inj (entry_publish_method hnames _ hpublic hn)
  attributes n v hpublic hn := by
    have hentry := entry_publish_attribute hnames (s.activate (some i)) hpublic hn
    exact ⟨(Prod.mk.inj hentry).1, get?_attach_attribute hnames s hi hpublic hn⟩
  others n hn := Prod.mk.inj (entry_publish_other hnames (s.activate (some i)) hn)

/-- Counting all public names of a class as exposed or not recounts its registration. -/
theorem Registration.recounted_exposing (hnames : w.hierarchy.Lists isPublic c names)
    (reg : Registration) : Recounted w.hierarchy isPublic c reg
      { reg with exposed := names.foldl (w.hierarchy.exposing c) reg.exposed } where
  scopes := rfl
  methods n m hpublic hn := by
    have hmem : n ∈ names := hnames.mem hpublic hn
    rw [Hierarchy.mem_foldl_exposing, if_pos ⟨hmem, by rw [hn]; rfl⟩, hn]
    rintro ⟨v, hv⟩
    cases hv
  attributes n v hpublic hn := by
    have hmem : n ∈ names := hnames.mem hpublic hn
    rw [Hierarchy.mem_foldl_exposing, if_pos ⟨hmem, by rw [hn]; rfl⟩]
    exact ⟨v, hn⟩
  others n hn := by
    have hmem : n ∉ names := hnames.not_mem hn
    rw [Hierarchy.mem_foldl_exposing, if_neg fun hboth => hmem hboth.1]

end Listed

namespace Registry

variable {r : Registry} {w : World} {i : InstanceId} {c : ClassId} {reg : Registration}

/-- A scope that the instance's class is not registered into is found as it was. -/
theorem scope?_attach_of_not_mem (hr : r.Sound) (hfound : r.registrationOf? w i = some (c, reg))
    {h : ScopeHandle} (hh : h ∉ reg.scopes) : (r.attach w i).scope? h = r.scope? h := by
  have hreg := (registrationOf?_eq_some.1 hfound).2
  refine Option.ext fun s => ?_
  rw [scope?_eq_some, scope?_eq_some, (layout_attach r w i).id]
  refine and_congr_right fun hid => ?_
  -- a handle of this registry that is not listed has a place that is not listed
  have hk : h.index ∉ reg.scopes.map (·.index) := by
    intro hk
    obtain ⟨reg', hreg', hh'⟩ := (hr.hosts_iff_of_issued hid).1 ⟨reg, hreg, hk⟩
    obtain rfl : reg = reg' := Option.some.inj (hreg.symm.trans hreg')
    exact hh hh'
  rw [getElem?_scopes_attach hfound, if_neg hk]

end Registry

namespace Stage

variable {licence : Licence} {st : Stage}

/-- At every stage of every run, whatever other code does to the classes: attaching an instance of a
registered class installs it in every scope of the registration, whatever stood there, and recounts
what the class exposes. It leaves every other scope and registration, and what is known of the
registry itself. An instance of a class that is not registered changes nothing, also when classes
above or below it are registered. -/
theorem attach_installs_class (reach : Reachable licence st) {i : InstanceId} {c : ClassId}
    (hi : st.world.classOf? i = some c) :
    (∀ reg, st.registry.registration? c = some reg →
      (∃ reg', (st.registry.attach st.world i).registration? c = some reg' ∧
        reg.Recounted st.world.hierarchy st.registry.isPublic c reg') ∧
      (∀ h ∈ reg.scopes, ∃ s s', st.registry.scope? h = some s ∧
        (st.registry.attach st.world i).scope? h = some s' ∧
        s.Installed st.world st.registry.isPublic c i s') ∧
      (∀ h, h ∉ reg.scopes →
        (st.registry.attach st.world i).scope? h = st.registry.scope? h) ∧
      (∀ d, d ≠ c →
        (st.registry.attach st.world i).registration? d = st.registry.registration? d) ∧
      (st.registry.attach st.world i).id = st.registry.id ∧
      (st.registry.attach st.world i).hiddenMark = st.registry.hiddenMark) ∧
    (st.registry.registration? c = none → st.registry.attach st.world i = st.registry) := by
  have hsound := reach.sound
  have hnames : st.world.hierarchy.Lists st.registry.isPublic c
      (st.registry.publicNames st.world c) := fun _ => Registry.mem_publicNames
  refine ⟨fun reg hreg => ?registered, fun hnone => ?ignored⟩
  case registered =>
    have hfound := Registry.registrationOf?_eq_some.2 ⟨hi, hreg⟩
    have hlayout := Registry.layout_attach st.registry st.world i
    have hregistration := Registry.registration?_attach hsound hfound
    refine ⟨?recounted, ?installed, ?scopes, ?registrations, hlayout.id, hlayout.hiddenMark⟩
    case recounted =>
      refine ⟨_, ?_, Registration.recounted_exposing hnames reg⟩
      rw [hregistration, if_pos rfl]
    case installed =>
      intro h hh
      obtain ⟨s, hs⟩ := hsound.exists_scope hreg hh
      exact ⟨s, _, hs, Registry.scope?_attach hfound (List.mem_map_of_mem hh) hs,
        Scope.installed_publish hnames hi s⟩
    case scopes => exact fun h hh => Registry.scope?_attach_of_not_mem hsound hfound hh
    case registrations =>
      intro d hd
      rw [hregistration, if_neg hd]
  case ignored =>
    have hfound : st.registry.registrationOf? st.world i = none := by
      cases hfound : st.registry.registrationOf? st.world i with
      | none => rfl
      | some found =>
        obtain ⟨hclass, hreg⟩ := Registry.registrationOf?_eq_some.1 hfound
        obtain rfl : found.1 = c := Option.some.inj (hclass.symm.trans hi)
        rw [hnone] at hreg
        cases hreg
    rw [Registry.attach_eq, hfound]

/-- Attached again after other code made a method of its attribute, the instance has the delegate of
that method where its value was bound, and the name is not exposed any more. -/
theorem attach_installs_class_stale :
    Reachable .free stale ∧ stale.world.classOf? 0 = some 0 ∧
      stale.registry.registration? 0 =
        some ⟨Std.ExtTreeSet.insert ∅ "level", [sampleHandle]⟩ ∧
      sampleScope.get? "level" = some (.int 3) ∧
      ∃ s' reg', (stale.registry.attach stale.world 0).scope? sampleHandle = some s' ∧
        s'.active = some 0 ∧
        s'.delegate? "level" = some (.ofMethod "Guide" "level" sampleMethod) ∧
        s'.get? "level" = none ∧
        (stale.registry.attach stale.world 0).registration? 0 = some reg' ∧
        "level" ∉ reg'.exposed := by
  have hi : stale.world.classOf? 0 = some 0 := rfl
  have hreg : stale.registry.registration? 0 =
      some ⟨Std.ExtTreeSet.insert ∅ "level", [sampleHandle]⟩ := by
    decide +kernel
  have hbound : sampleScope.get? "level" = some (.int 3) := by decide +kernel
  have hpublic : stale.registry.isPublic "level" = true := by decide +kernel
  have hmeans : stale.world.hierarchy.lookup? 0 "level" = some (.method sampleMethod) := rfl
  obtain ⟨⟨reg', hreg', hcounted⟩, hinstalled, -⟩ :=
    (attach_installs_class stale_reachable hi).1 _ hreg
  obtain ⟨s, s', -, hs', hafter⟩ := hinstalled sampleHandle List.mem_cons_self
  obtain ⟨hdelegate, hget⟩ := hafter.methods "level" sampleMethod hpublic hmeans
  exact ⟨stale_reachable, hi, hreg, hbound, s', reg', hs', hafter.active, hdelegate, hget, hreg',
    hcounted.methods "level" sampleMethod hpublic hmeans⟩

end Stage

end Delegation
