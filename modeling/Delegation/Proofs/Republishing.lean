import Delegation.Proofs.Synchrony
/-!
# Registering every class again

A member that is set through a registry is published under its one name, for
the classes at or below the one that gained it. Setting it elsewhere and then
registering every registered class once more into every scope of its
registration publishes all public names of all of them. Where no scope has two
classes both ways bring scopes and exposed names in step with the same world,
keep the layout and every scope's handle, name and active instance, and a
registry in step is determined by these. So both ways end with the same registry.
-/

namespace Delegation

namespace Registry

/-- A class is registered into the scope of a handle. -/
def Enrols (r : Registry) (c : ClassId) (h : ScopeHandle) : Prop :=
  ∃ reg, r.registration? c = some reg ∧ h ∈ reg.scopes

/-- Registers classes into scopes one after the other. -/
def registerAll (r : Registry) (w : World) (visits : List (ClassId × ScopeHandle)) :
    Except RegistryError Registry :=
  visits.foldlM (fun r e => r.register w e.1 e.2) r

/-- A scope after all public names of a class were published. -/
def refresh (r : Registry) (w : World) (s : Scope) (c : ClassId) : Scope :=
  (r.publicNames w c).foldl (Scope.place w c) s

/-- The classes registered into the scope at a place, in order. -/
def visitors (visits : List (ClassId × ScopeHandle)) (k : Nat) : List ClassId :=
  (visits.filter fun e => decide (e.2.index = k)).map (·.1)

/-- A class visits the scopes at the places of its handles. -/
theorem mem_visitors {visits : List (ClassId × ScopeHandle)} {k : Nat} {c : ClassId} :
    c ∈ visitors visits k ↔ ∃ h, (c, h) ∈ visits ∧ h.index = k := by
  simp [visitors]

/-- The same classes are registered into the same scopes. -/
theorem Layout.enrols {r r' : Registry} (h : Layout r r') {c : ClassId} {handle : ScopeHandle}
    (hc : r.Enrols c handle) : r'.Enrols c handle := by
  obtain ⟨reg, hreg, hmem⟩ := hc
  have hscopes := h.scopes c
  rw [hreg] at hscopes
  obtain ⟨reg', hreg', hs⟩ := Option.map_eq_some_iff.1 hscopes
  exact ⟨reg', hreg', hs.symm ▸ hmem⟩

/-- A class is registered into the scope at the place of a handle. -/
theorem Enrols.hosts {r : Registry} {c : ClassId} {h : ScopeHandle} (hc : r.Enrols c h) :
    r.Hosts c h.index := by
  obtain ⟨reg, hreg, hmem⟩ := hc
  exact ⟨reg, hreg, List.mem_map_of_mem hmem⟩

/-- A class is registered into the scope at a place by a handle of the registry. -/
theorem Sound.hosts_iff {r : Registry} (hr : Sound r) {c : ClassId} {k : Nat} :
    r.Hosts c k ↔ r.Enrols c ⟨r.id, k⟩ := by
  constructor
  · rintro ⟨reg, hreg, hk⟩
    obtain ⟨⟨id, index⟩, hmem, rfl⟩ := List.mem_map.1 hk
    obtain rfl : id = r.id := (hr.issued c reg hreg _ hmem).1
    exact ⟨reg, hreg, hmem⟩
  · exact Enrols.hosts

/-- The registry hands out one handle for each place, by which the classes there are registered. -/
theorem Sound.hosts_iff_of_issued {r : Registry} (hr : Sound r) {c : ClassId} {h : ScopeHandle}
    (hid : h.registry = r.id) : r.Hosts c h.index ↔ r.Enrols c h := by
  have hhandle : (⟨r.id, h.index⟩ : ScopeHandle) = h := by rw [← hid]
  rw [hr.hosts_iff, hhandle]

section Again

variable {r r' : Registry} {w : World} {visits : List (ClassId × ScopeHandle)}

/-- The first registration is made, then the others. -/
theorem registerAll_cons {e : ClassId × ScopeHandle} :
    r.registerAll w (e :: visits) = .ok r' ↔
      ∃ r₁, r.register w e.1 e.2 = .ok r₁ ∧ r₁.registerAll w visits = .ok r' := by
  rw [registerAll, List.foldlM_cons]
  cases r.register w e.1 e.2 with
  | error err =>
    constructor
    · intro h
      cases h
    · rintro ⟨r₁, h, -⟩
      cases h
  | ok r₁ =>
    constructor
    · exact fun h => ⟨r₁, rfl, h⟩
    · rintro ⟨r₂, ⟨⟩, h⟩
      exact h

/-- A class that is registered again where it is registered leaves the layout. -/
theorem Enrols.layout {c : ClassId} {h : ScopeHandle} (hc : r.Enrols c h)
    (e : r.register w c h = .ok r') : Layout r r' where
  id := (frame_register e).1
  hiddenMark := by rw [register_eq_ok e]
  length := (frame_register e).2.2
  scopes d := by
    rw [registration?_register e]
    by_cases hd : d = c
    · obtain ⟨reg, hreg, hmem⟩ := hc
      rw [if_pos hd, hd, hreg]
      simp [hmem]
    · rw [if_neg hd]

/-- Classes can be registered again wherever they are registered, and that leaves the layout. -/
theorem exists_registerAll (hr : Sound r) (w : World) (hall : ∀ e ∈ visits, r.Enrols e.1 e.2) :
    ∃ r', r.registerAll w visits = .ok r' ∧ Layout r r' := by
  induction visits generalizing r with
  | nil => exact ⟨r, rfl, .refl r⟩
  | cons e visits ih =>
    obtain ⟨reg, hreg, hmem⟩ := hall e List.mem_cons_self
    have hslot : r.slot e.2 = .ok e.2.index := if_pos (hr.issued e.1 reg hreg e.2 hmem)
    obtain ⟨r₁, h₁⟩ : ∃ r₁, r.register w e.1 e.2 = .ok r₁ := by
      rw [register, hslot]
      exact ⟨_, rfl⟩
    have hlayout : Layout r r₁ := Enrols.layout ⟨reg, hreg, hmem⟩ h₁
    obtain ⟨r', hrest, hlater⟩ := ih (hr.of_layout hlayout) fun e' he' =>
      hlayout.enrols (hall e' (List.mem_cons_of_mem _ he'))
    exact ⟨r', registerAll_cons.2 ⟨r₁, h₁, hrest⟩, hlayout.trans hlater⟩

/-- Registering classes refreshes every scope for each class that visits it, in order. -/
theorem getElem?_scopes_registerAll (e : r.registerAll w visits = .ok r') (k : Nat) :
    r'.scopes[k]? = r.scopes[k]?.map fun s => (visitors visits k).foldl (r.refresh w) s := by
  induction visits generalizing r with
  | nil =>
    cases e
    simp [visitors]
  | cons v visits ih =>
    obtain ⟨r₁, h₁, hrest⟩ := registerAll_cons.1 e
    have hrefresh : r₁.refresh w = r.refresh w := by
      funext s c
      simp only [refresh, publicNames, (frame_register h₁).2.1]
    rw [ih hrest, getElem?_scopes_register h₁, hrefresh]
    by_cases hk : v.2.index = k
    · have hvisitors : visitors (v :: visits) k = v.1 :: visitors visits k := by
        simp [visitors, hk]
      rw [if_pos hk.symm, hvisitors, Option.map_map]
      rfl
    · have hvisitors : visitors (v :: visits) k = visitors visits k := by
        simp [visitors, hk]
      rw [if_neg (Ne.symm hk), hvisitors]

/-- Registering classes again where they are registered counts the public names of each as exposed
or not by what they mean. -/
theorem registration?_registerAll (hall : ∀ e ∈ visits, r.Enrols e.1 e.2)
    (e : r.registerAll w visits = .ok r') (d : ClassId) :
    r'.registration? d = (r.registration? d).map fun reg =>
      if d ∈ visits.map (·.1) then
        { reg with exposed := (r.publicNames w d).foldl (w.hierarchy.exposing d) reg.exposed }
      else reg := by
  induction visits generalizing r with
  | nil =>
    cases e
    simp
  | cons v visits ih =>
    obtain ⟨r₁, h₁, hrest⟩ := registerAll_cons.1 e
    have henrols := hall v List.mem_cons_self
    have hlayout : Layout r r₁ := henrols.layout h₁
    have hnames : r₁.publicNames w d = r.publicNames w d := by
      simp only [publicNames, hlayout.isPublic]
    rw [ih (fun e' he' => hlayout.enrols (hall e' (List.mem_cons_of_mem _ he'))) hrest, hnames,
      registration?_register h₁]
    by_cases hd : d = v.1
    · obtain ⟨reg, hreg, hmem⟩ := henrols
      subst hd
      -- a class that comes again counts the same names the same way
      simp [hreg, hmem, Hierarchy.foldl_exposing_foldl_exposing]
    · rw [if_neg hd]
      simp only [List.map_cons, List.mem_cons, hd, false_or]

/-- Registering classes keeps the scopes' frames. -/
theorem frame_registerAll (e : r.registerAll w visits = .ok r') (k : Nat) :
    r'.scopes[k]?.map Scope.frame = r.scopes[k]?.map Scope.frame := by
  have hframe : ∀ s c, (r.refresh w s c).frame = s.frame := fun s c =>
    Scope.frame_foldl_place w c _ s
  rw [getElem?_scopes_registerAll e, Option.map_map]
  exact congrArg (Option.map · _) (funext (Scope.frame_foldl hframe _))

/-- Being told of a member keeps the scopes' frames. -/
theorem frame_notifyIn (r : Registry) (order : List (ClassId × Registration)) (w : World)
    (c : ClassId) (name : String) (k : Nat) :
    (r.notifyIn order w c name).scopes[k]?.map Scope.frame = r.scopes[k]?.map Scope.frame := by
  by_cases hpublic : r.isPublic name = true
  · have hframe : ∀ s d, (Scope.place w d s name).frame = s.frame := fun s d =>
      Scope.frame_place w d s name
    rw [getElem?_scopes_notifyIn hpublic, Option.map_map]
    exact congrArg (Option.map · _) (funext (Scope.frame_foldl hframe _))
  · rw [notifyIn_of_hidden hpublic]

end Again

end Registry

/-- Refreshing a scope several times for one class is refreshing it once. -/
theorem Registry.foldl_refresh_of_sole (r : Registry) (w : World) {c : ClassId} {ds : List ClassId}
    (hds : ∀ d ∈ ds, d = c) (hne : ds ≠ []) (s : Scope) :
    ds.foldl (r.refresh w) s = r.refresh w s c :=
  Scope.foldl_of_sole (fun s d => Scope.foldl_place_foldl_place w d _ s) hds hne s

/-- A scope in step with the world before a member was gained is in step again once all public
names of its class are published. -/
theorem Scope.Shows.republish {w w' : World} {isPublic : String → Bool} {c d : ClassId} {s : Scope}
    {name : String} (h : Shows w isPublic d s) (hw : w.Gains w' c name) {names : List String}
    (hnames : w'.hierarchy.Lists isPublic d names) :
    Shows w' isPublic d (names.foldl (Scope.place w' d) s) := by
  refine shows_foldl_place hnames (fun i hi => hw.later.classOf? (h.active i hi)) ?_ ?_
  · intro n hn
    refine h.entry_of_meaningless fun hpublic => ?_
    exact hw.lookup?_eq_none (hnames.lookup?_eq_none hn hpublic)
  · intro n hactive
    exact h.unbound hactive n

namespace Stage

/-- All is in step again when a class may have gained a member and every registered class was
registered again into every scope of its registration. -/
theorem InStep.registerAll {w w' : World} {r r' : Registry} (h : InStep ⟨w, r⟩) (hr : r.Sound)
    {c : ClassId} {name : String} (hw : w.Gains w' c name) {visits : List (ClassId × ScopeHandle)}
    (hall : ∀ d handle, (d, handle) ∈ visits ↔ r.Enrols d handle)
    (e : r.registerAll w' visits = .ok r') : InStep ⟨w', r'⟩ := by
  have henrols : ∀ v ∈ visits, r.Enrols v.1 v.2 := fun v hv => (hall v.1 v.2).1 hv
  obtain ⟨r'', e', hlayout⟩ := Registry.exists_registerAll hr w' henrols
  obtain rfl : r' = r'' := Except.ok.inj (e.symm.trans e')
  have hvisitors : ∀ d k, d ∈ Registry.visitors visits k ↔ r.Hosts d k := by
    intro d k
    rw [Registry.mem_visitors]
    constructor
    · rintro ⟨handle, hmem, rfl⟩
      exact ((hall d handle).1 hmem).hosts
    · exact fun hd => ⟨_, (hall d _).2 (hr.hosts_iff.1 hd), rfl⟩
  refine h.of_layout hlayout hw.later (fun k s' hs' => ?_) fun d reg' hd => ?_
  · rw [Registry.getElem?_scopes_registerAll e] at hs'
    obtain ⟨s, hs, rfl⟩ := Option.map_eq_some_iff.1 hs'
    refine ⟨s, hs, fun hnone => ?_, fun d hsole hshows => ?_⟩
    · have hnobody : Registry.visitors visits k = [] :=
        List.eq_nil_iff_forall_not_mem.2 fun d hd => hnone d ((hvisitors d k).1 hd)
      rw [hnobody]
      rfl
    · have hsame : ∀ d' ∈ Registry.visitors visits k, d' = d := fun d' hd' =>
        (hsole d').1 ((hvisitors d' k).1 hd')
      have hne : Registry.visitors visits k ≠ [] :=
        List.ne_nil_of_mem ((hvisitors d k).2 ((hsole d).2 rfl))
      rw [r.foldl_refresh_of_sole w' hsame hne]
      exact hshows.republish hw fun _ => Registry.mem_publicNames
  · rw [Registry.registration?_registerAll henrols e] at hd
    obtain ⟨reg, hreg, rfl⟩ := Option.map_eq_some_iff.1 hd
    obtain ⟨handle, hhandle⟩ := List.exists_mem_of_ne_nil _ (hr.nonempty d reg hreg)
    have hvisited : d ∈ visits.map (·.1) :=
      List.mem_map_of_mem ((hall d handle).2 ⟨reg, hreg, hhandle⟩)
    have hnames : w'.hierarchy.Lists r.isPublic d (r.publicNames w' d) :=
      fun _ => Registry.mem_publicNames
    rw [if_pos hvisited]
    refine Registration.Exact.foldl_exposing hnames fun n hn => ?_
    obtain ⟨hpublic, v, hv⟩ := (h.exposed d reg hreg n).1 hn
    exact (hnames n).2 ⟨hpublic, hw.kept d n (by rw [hv]; rfl)⟩

/-- Where no scope has two classes, a registry in step is determined by its layout and by its
scopes' frames. -/
theorem InStep.ext {w : World} {r r' : Registry} (h : InStep ⟨w, r⟩) (h' : InStep ⟨w, r'⟩)
    (hlayout : r.Layout r') (hsole : ∀ c d k, r.Hosts c k → r.Hosts d k → c = d)
    (hframe : ∀ k : Nat, r'.scopes[k]?.map Scope.frame = r.scopes[k]?.map Scope.frame) :
    r' = r := by
  have hentries : ∀ (k : Nat) s s', r.scopes[k]? = some s → r'.scopes[k]? = some s' →
      s'.active = s.active → ∀ n, s'.entry n = s.entry n := by
    intro k s s' hs hs' hactive n
    by_cases hhosts : ∃ c, r.Hosts c k
    · obtain ⟨c, hc⟩ := hhosts
      have honly : ∀ d, r.Hosts d k ↔ d = c := fun d =>
        ⟨fun hd => hsole d c k hd hc, fun hd => hd ▸ hc⟩
      rw [(h.shows k s c hs honly).entry,
        (h'.shows k s' c hs' fun d => hlayout.hosts.trans (honly d)).entry, hactive,
        hlayout.isPublic]
    · have hnone : ∀ c, ¬ r.Hosts c k := fun c hc => hhosts ⟨c, hc⟩
      rw [(h.blank k s hs hnone).entry,
        (h'.blank k s' hs' fun c hc => hnone c (hlayout.hosts.1 hc)).entry]
  refine hlayout.ext (fun k => ?scope) fun c => ?registration
  case scope =>
    have hk := hframe k
    cases hs : r.scopes[k]? with
    | none =>
      rw [hs] at hk
      exact Option.map_eq_none_iff.1 hk
    | some s =>
      rw [hs] at hk
      obtain ⟨s', hs', hsame⟩ := Option.map_eq_some_iff.1 hk
      have hactive : s'.active = s.active := congrArg (fun f => f.2.2) hsame
      rw [hs', Scope.ext_entry hsame (hentries k s s' hs hs' hactive)]
  case registration =>
    have hc := hlayout.scopes c
    cases hreg : r.registration? c with
    | none =>
      rw [hreg] at hc
      exact Option.map_eq_none_iff.1 hc
    | some reg =>
      rw [hreg] at hc
      obtain ⟨reg', hreg', hplaces⟩ := Option.map_eq_some_iff.1 hc
      have hexposed : reg'.exposed = reg.exposed := Std.ExtTreeSet.ext_mem fun n => by
        have hnew := h'.exposed c reg' hreg' n
        simp only [hlayout.isPublic] at hnew
        exact hnew.trans (h.exposed c reg hreg n).symm
      rw [hreg']
      cases reg
      cases reg'
      cases hexposed
      cases hplaces
      rfl

variable {st : Stage}

/-- At every stage of every run that leaves registered classes and their ancestors to the registry,
if no scope has two classes, setting a member of any class through the registry leads to one
registry, in whatever order the registrations are visited; and to the same one leads setting the
member elsewhere and registering every registered class again into every scope of its registration,
in any order and as often as one likes, which always succeeds. -/
theorem addMember_eq_registerAll (reach : Reachable .unwatched st)
    (hsole : ∀ c d h, st.registry.Enrols c h → st.registry.Enrols d h → c = d) (c : ClassId)
    (name : String) (m : Member) :
    (st.registry.addMember st.world c name m).1 = st.world.setMember c name m ∧
      (∀ order : List (ClassId × Registration), order.Perm st.registry.registrations.toList →
        st.registry.notifyIn order (st.world.setMember c name m) c name =
          (st.registry.addMember st.world c name m).2) ∧
      ∀ visits : List (ClassId × ScopeHandle),
        (∀ d h, (d, h) ∈ visits ↔ st.registry.Enrols d h) →
          st.registry.registerAll (st.world.setMember c name m) visits =
            .ok (st.registry.addMember st.world c name m).2 := by
  have hr := reach.sound
  have hgains := World.gains_setMember st.world c name m
  have hhosts : ∀ a b k, st.registry.Hosts a k → st.registry.Hosts b k → a = b :=
    fun a b k ha hb => hsole a b _ (hr.hosts_iff.1 ha) (hr.hosts_iff.1 hb)
  have hadd : (st.registry.addMember st.world c name m).2 = st.registry.notifyIn
      st.registry.registrations.toList (st.world.setMember c name m) c name := rfl
  have htold : InStep ⟨st.world.setMember c name m, st.registry.notifyIn
      st.registry.registrations.toList (st.world.setMember c name m) c name⟩ :=
    reach.inStep.notifyIn hr (.refl _) hgains
  have hlayout := Registry.layout_notifyIn (List.Perm.refl st.registry.registrations.toList)
    (st.world.setMember c name m) c name
  -- whatever is in step with the new world and keeps the frame is what being told leads to
  have hsame : ∀ r', InStep ⟨st.world.setMember c name m, r'⟩ → st.registry.Layout r' →
      (∀ k : Nat, r'.scopes[k]?.map Scope.frame = st.registry.scopes[k]?.map Scope.frame) →
        r' = (st.registry.addMember st.world c name m).2 := by
    intro r' hstep hlayout' hframe
    rw [hadd]
    refine InStep.ext htold hstep (hlayout.symm.trans hlayout') ?_ fun k => ?_
    · intro a b k ha hb
      exact hhosts a b k (hlayout.hosts.1 ha) (hlayout.hosts.1 hb)
    · rw [hframe k, Registry.frame_notifyIn]
  refine ⟨rfl, fun order each => ?_, fun visits hall => ?_⟩
  · exact hsame _ (reach.inStep.notifyIn hr each hgains) (Registry.layout_notifyIn each _ c name)
      (Registry.frame_notifyIn _ order _ c name)
  · obtain ⟨r', e, hlayout'⟩ := Registry.exists_registerAll hr (st.world.setMember c name m)
      fun v hv => (hall v.1 v.2).1 hv
    rw [e, hsame r' (reach.inStep.registerAll hr hgains hall e) hlayout'
      (Registry.frame_registerAll e)]

/-- A method of a registered class becomes an attribute, with an instance attached. -/
theorem addMember_eq_registerAll_sample :
    (∀ c d h, sample.registry.Enrols c h → sample.registry.Enrols d h → c = d) ∧
      sample.registry.registerAll (sample.world.setMember 0 "welcome" (.attribute (.int 4)))
        [(0, sampleHandle)] =
          .ok (sample.registry.addMember sample.world 0 "welcome" (.attribute (.int 4))).2 := by
  have hregistrations : sample.registry.registrations =
      Std.ExtTreeMap.insert ∅ 0 ⟨Std.ExtTreeSet.insert ∅ "level", [sampleHandle]⟩ := by
    decide +kernel
  have henrols : ∀ c h, sample.registry.Enrols c h ↔ c = 0 ∧ h = sampleHandle := by
    intro c h
    rw [Registry.Enrols, Registry.registration?, hregistrations, Std.ExtTreeMap.getElem?_insert]
    by_cases hc : c = 0
    · simp [hc]
    · simp [hc, Ne.symm hc]
  have hsole : ∀ c d h, sample.registry.Enrols c h → sample.registry.Enrols d h → c = d :=
    fun c d h hc hd => ((henrols c h).1 hc).1.trans ((henrols d h).1 hd).1.symm
  refine ⟨hsole, (addMember_eq_registerAll (sample_reachable .unwatched) hsole 0 "welcome"
    (.attribute (.int 4))).2.2 _ fun d h => ?_⟩
  rw [henrols, List.mem_singleton, Prod.mk.injEq]

end Stage

end Delegation
