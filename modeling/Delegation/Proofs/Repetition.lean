import Delegation.Proofs.Foreign
import Delegation.Proofs.Visiting
/-!
# Doing the same twice

Every operation of a registry, done a second time in a row, changes nothing
more, whatever its scopes held before the first time. Publishing ends with what
the names mean for a class now, for the instance that is active; so a second
run meets what it would leave, also where the first one met stale values or
entries of other classes. Being told of a member publishes one name for several
classes. Each of them replaces what stands there, keeps it, or only uninstalls a
delegate, and what comes out of several such changes is one of the three again;
so a second round in the same order does nothing, and a second round in any
order does nothing where no two of the classes share a scope.
-/

namespace Delegation

/-- What stands under a name after it was published for several classes, one after the other. -/
def World.publishedAll (w : World) (ds : List ClassId) (active : Option InstanceId) (n : String)
    (old : Option Delegate × Option Value) : Option Delegate × Option Value :=
  ds.foldl (fun old d => w.published d active n old) old

section PublishedAll

variable (w : World) (active : Option InstanceId) (n : String)

/-- Publishing a name for a class replaces what stands under it, keeps it, or uninstalls the
delegate. -/
theorem World.published_shape (d : ClassId) :
    (∀ old old', w.published d active n old = w.published d active n old') ∨
      (∀ old, w.published d active n old = old) ∨
      ∀ old, w.published d active n old = (none, old.2) := by
  rcases w.hierarchy.lookup?_cases d n with h | ⟨m, h⟩ | ⟨v, h⟩
  · exact .inr (.inl (published_of_none h active))
  · exact .inl fun old old' => by rw [published_of_method h, published_of_method h]
  · cases hshown : w.shown? d active n with
    | none =>
      refine .inr (.inr fun old => ?_)
      rw [published_of_attribute h, hshown, Option.none_or]
    | some x =>
      refine .inl fun old old' => ?_
      rw [published_of_attribute h, published_of_attribute h, hshown, Option.some_or,
        Option.some_or]

/-- Publishing a name for several classes does one of these three as well. -/
theorem World.publishedAll_shape (ds : List ClassId) :
    (∀ old old', w.publishedAll ds active n old = w.publishedAll ds active n old') ∨
      (∀ old, w.publishedAll ds active n old = old) ∨
      ∀ old, w.publishedAll ds active n old = (none, old.2) := by
  induction ds with
  | nil => exact .inr (.inl fun _ => rfl)
  | cons d ds ih =>
    have hcons : ∀ old, w.publishedAll (d :: ds) active n old =
        w.publishedAll ds active n (w.published d active n old) := fun _ => rfl
    simp only [hcons]
    rcases ih with hconst | hkeep | hdrop
    · exact .inl fun old old' => hconst _ _
    · simp only [hkeep]
      exact w.published_shape active n d
    · simp only [hdrop]
      rcases w.published_shape active n d with hd | hd | hd
      · exact .inl fun old old' => by rw [hd old old']
      · exact .inr (.inr fun old => by rw [hd])
      · exact .inr (.inr fun old => by rw [hd])

/-- Publishing a name for several classes a second time changes nothing more. -/
theorem World.publishedAll_publishedAll (ds : List ClassId)
    (old : Option Delegate × Option Value) :
    w.publishedAll ds active n (w.publishedAll ds active n old) =
      w.publishedAll ds active n old := by
  rcases w.publishedAll_shape active n ds with hconst | hkeep | hdrop
  · exact hconst _ _
  · rw [hkeep]
  · simp only [hdrop]

end PublishedAll

namespace Scope

/-- Publishing a name for several classes keeps the frame. -/
theorem frame_foldl_place_classes (w : World) (name : String) (ds : List ClassId) (s : Scope) :
    (ds.foldl (fun s d => place w d s name) s).frame = s.frame :=
  frame_foldl (fun s d => frame_place w d s name) ds s

/-- Publishing a name for several classes changes what stands under it and nothing else. -/
theorem entry_foldl_place_classes (w : World) (name : String) (ds : List ClassId) (s : Scope)
    (k : String) : (ds.foldl (fun s d => place w d s name) s).entry k =
      if k = name then w.publishedAll ds s.active name (s.entry name) else s.entry k := by
  by_cases hk : k = name
  · subst hk
    rw [if_pos rfl]
    induction ds generalizing s with
    | nil => rfl
    | cons d ds ih =>
      rw [List.foldl_cons, ih, active_place, entry_place, if_pos rfl]
      rfl
  · rw [if_neg hk, entry_foldl_place_of_ne hk]

/-- Publishing a name for several classes a second time, in the same order, does nothing more. -/
theorem foldl_place_classes_twice (w : World) (name : String) (ds : List ClassId) (s : Scope) :
    ds.foldl (fun s d => place w d s name) (ds.foldl (fun s d => place w d s name) s) =
      ds.foldl (fun s d => place w d s name) s := by
  refine ext_entry (frame_foldl_place_classes w name ds _) fun k => ?_
  rw [entry_foldl_place_classes, active_foldl_place_classes]
  by_cases hk : k = name
  · subst hk
    rw [if_pos rfl, entry_foldl_place_classes, if_pos rfl, World.publishedAll_publishedAll]
  · rw [if_neg hk]

/-- A scope where an instance was attached is left as it is when that is done again. -/
theorem activate_foldl_place_twice (w : World) (c : ClassId) (names : List String)
    (i : Option InstanceId) (s : Scope) :
    names.foldl (place w c) ((names.foldl (place w c) (s.activate i)).activate i) =
      names.foldl (place w c) (s.activate i) := by
  have hactive : (names.foldl (place w c) (s.activate i)).active = i := active_foldl_place w c _ _
  rw [activate_eq_self hactive, foldl_place_foldl_place]

/-- A scope where an instance was detached is left as it is when that is done again. -/
theorem activate_foldl_unbind_twice (names : List String) (s : Scope) :
    names.foldl unbind ((names.foldl unbind (s.activate none)).activate none) =
      names.foldl unbind (s.activate none) := by
  have hactive : (names.foldl unbind (s.activate none)).active = none := active_foldl_unbind _ _
  rw [activate_eq_self hactive, foldl_unbind_foldl_unbind]

end Scope

namespace Registry

/-- Registries of one layout visit the same classes for a scope, if they go by their own order. -/
theorem Layout.visited_toList {r r' : Registry} (h : Layout r r') (w : World) (c : ClassId)
    (k : Nat) :
    visited w c r'.registrations.toList k = visited w c r.registrations.toList k := by
  have hplaces : r'.registrations.map (fun _ reg => reg.scopes) =
      r.registrations.map (fun _ reg => reg.scopes) := by
    refine Std.ExtTreeMap.ext_getElem? fun d => ?_
    rw [Std.ExtTreeMap.getElem?_map, Std.ExtTreeMap.getElem?_map]
    exact h.scopes d
  have hlists := congrArg Std.ExtTreeMap.toList hplaces
  rw [Std.ExtTreeMap.toList_map, Std.ExtTreeMap.toList_map] at hlists
  -- which classes are visited is told by the classes and their scopes alone
  have hvisited : ∀ entries : List (ClassId × Registration), visited w c entries k =
      ((entries.map fun e => (e.1, e.2.scopes)).filter fun e =>
        w.hierarchy.isSubclass e.1 c && decide (k ∈ e.2.map (·.index))).map (·.1) := by
    intro entries
    rw [List.filter_map, List.map_map]
    rfl
  rw [hvisited, hvisited, hlists]

variable {r : Registry} {w : World} {c : ClassId}

/-- A class that was registered into a scope is registered there again without any change. -/
theorem register_register {r' : Registry} {h : ScopeHandle} (e : r.register w c h = .ok r') :
    r'.register w c h = .ok r' := by
  obtain ⟨reg, hreg⟩ : ∃ reg, r'.registration? c = some reg :=
    ⟨_, by rw [registration?_register e, if_pos rfl]⟩
  have hmem : h ∈ reg.scopes := (scopes_register e hreg).2 (.inl rfl)
  obtain ⟨hid, hlt⟩ := slot_of_register e
  obtain ⟨hsameId, hpublic, hlength⟩ := frame_register e
  have hslot : r'.slot h = .ok h.index := if_pos ⟨hsameId ▸ hid, hlength ▸ hlt⟩
  obtain ⟨r'', e'⟩ : ∃ r'', r'.register w c h = .ok r'' := by
    rw [register, hslot]
    exact ⟨_, rfl⟩
  have hnames : r'.publicNames w c = r.publicNames w c := by simp only [publicNames, hpublic]
  have hlayout : Layout r' r'' := Enrols.layout ⟨reg, hreg, hmem⟩ e'
  rw [e', hlayout.ext (fun k => ?scope) fun d => ?registration]
  case scope =>
    rw [getElem?_scopes_register e', hnames, getElem?_scopes_register e]
    split
    · rw [Option.map_map]
      exact congrArg (Option.map · _) (funext (Scope.foldl_place_foldl_place w c _))
    · rfl
  case registration =>
    rw [registration?_register e', hnames]
    split
    · rename_i hd
      subst hd
      have hcounted : (r.publicNames w d).foldl (w.hierarchy.exposing d) reg.exposed =
          reg.exposed := by
        have hknown := registration?_register e d
        rw [if_pos rfl, hreg] at hknown
        rw [Option.some.inj hknown]
        exact w.hierarchy.foldl_exposing_foldl_exposing d _ _
      simp only [hreg, Option.getD_some, if_pos hmem, hcounted]
    · rfl

/-- Asked a second time to register a class into a scope, a registry answers as it did and stays as
it is. -/
theorem enrol_enrol (r : Registry) (w : World) (c : ClassId) (h : ScopeHandle) :
    (r.enrol w c h).1.enrol w c h = r.enrol w c h := by
  rw [enrol_eq r]
  cases e : r.register w c h with
  | ok r' => rw [enrol_of_register (register_register e)]
  | error err => rw [enrol_of_refused (slot_of_register_error e)]

variable {i : InstanceId}

/-- After an instance was attached, its class is registered into the scopes it was registered
into. -/
theorem registrationOf?_of_layout {r' : Registry} (h : Layout r r') {reg : Registration}
    (hfound : r.registrationOf? w i = some (c, reg)) :
    ∃ reg', r'.registrationOf? w i = some (c, reg') ∧ reg'.scopes = reg.scopes := by
  obtain ⟨hi, hreg⟩ := registrationOf?_eq_some.1 hfound
  obtain ⟨reg', hreg', hscopes⟩ := h.symm.exists_registration hreg
  exact ⟨reg', registrationOf?_eq_some.2 ⟨hi, hreg'⟩, hscopes⟩

/-- Attaching an instance a second time changes nothing more. -/
theorem Sound.attach_attach (hr : r.Sound) (w : World) (i : InstanceId) :
    (r.attach w i).attach w i = r.attach w i := by
  cases hfound : r.registrationOf? w i with
  | none =>
    have hsame : r.attach w i = r := by rw [attach_eq, hfound]
    rw [hsame, hsame]
  | some e =>
    obtain ⟨c, reg⟩ := e
    have hlayout := layout_attach r w i
    obtain ⟨reg', hfound', hscopes⟩ := registrationOf?_of_layout hlayout hfound
    have hnames : (r.attach w i).publicNames w c = r.publicNames w c := by
      simp only [publicNames, hlayout.isPublic]
    refine (layout_attach (r.attach w i) w i).ext (fun k => ?scope) fun d => ?registration
    case scope =>
      rw [getElem?_scopes_attach hfound', hscopes, hnames, getElem?_scopes_attach hfound]
      split
      · rw [Option.map_map]
        exact congrArg (Option.map · _) (funext (Scope.activate_foldl_place_twice w c _ _))
      · rfl
    case registration =>
      have hreg' := (registrationOf?_eq_some.1 hfound').2
      rw [registration?_attach (hr.of_layout hlayout) hfound', hnames]
      split
      · rename_i hd
        subst hd
        rw [registration?_attach hr hfound, if_pos rfl] at hreg' ⊢
        cases hreg'
        simp only [Hierarchy.foldl_exposing_foldl_exposing]
      · rfl

/-- Detaching an instance a second time changes nothing more. -/
theorem Sound.detach_detach (hr : r.Sound) (w : World) (i : InstanceId) :
    (r.detach w i).detach w i = r.detach w i := by
  cases hfound : r.registrationOf? w i with
  | none =>
    have hsame : r.detach w i = r := by rw [detach_eq, hfound]
    rw [hsame, hsame]
  | some e =>
    obtain ⟨c, reg⟩ := e
    have hlayout := layout_detach r w i
    have hreg := (registrationOf?_eq_some.1 hfound)
    have hfound' : (r.detach w i).registrationOf? w i = some (c, reg) := by
      rw [registrationOf?_eq_some, registration?_detach hr hfound]
      exact hreg
    refine (layout_detach (r.detach w i) w i).ext (fun k => ?scope) fun d => ?registration
    case scope =>
      rw [getElem?_scopes_detach hfound', getElem?_scopes_detach hfound]
      split
      · rw [Option.map_map]
        exact congrArg (Option.map · _) (funext (Scope.activate_foldl_unbind_twice _))
      · rfl
    case registration => rw [registration?_detach (hr.of_layout hlayout) hfound']

variable {order order' : List (ClassId × Registration)} {name : String}

/-- Being told of a member a second time changes nothing more if every scope is visited for the
same classes in the same order. -/
theorem Sound.notifyIn_notifyIn (hr : r.Sound) (each : order.Perm r.registrations.toList)
    (each' : order'.Perm (r.notifyIn order w c name).registrations.toList)
    (hsame : ∀ k, visited w c order' k = visited w c order k) :
    (r.notifyIn order w c name).notifyIn order' w c name = r.notifyIn order w c name := by
  have hlayout := layout_notifyIn each w c name
  by_cases hpublic : r.isPublic name = true
  · have hpublic' : (r.notifyIn order w c name).isPublic name = true := by
      rw [hlayout.isPublic, hpublic]
    refine (layout_notifyIn each' w c name).ext (fun k => ?scope) fun d => ?registration
    case scope =>
      rw [getElem?_scopes_notifyIn hpublic', hsame, getElem?_scopes_notifyIn hpublic,
        Option.map_map]
      exact congrArg (Option.map · _) (funext (Scope.foldl_place_classes_twice w name _))
    case registration =>
      rw [registration?_notifyIn (hr.of_layout hlayout) each' hpublic',
        registration?_notifyIn hr each hpublic, Option.map_map]
      refine congrArg (Option.map · _) (funext fun reg => ?_)
      by_cases hsub : w.hierarchy.isSubclass d c = true
      · simp only [Function.comp_apply, if_pos hsub, Hierarchy.exposing_exposing]
      · simp only [Function.comp_apply, if_neg hsub]
  · have hhidden : ¬ (r.notifyIn order w c name).isPublic name = true := by
      rw [hlayout.isPublic]
      exact hpublic
    rw [notifyIn_of_hidden hhidden]

/-- Being told of a member a second time changes nothing more. -/
theorem Sound.notify_notify (hr : r.Sound) (w : World) (c : ClassId) (name : String) :
    (r.notify w c name).notify w c name = r.notify w c name := by
  rw [notify_eq r, notify_eq]
  have hlayout := layout_notifyIn (List.Perm.refl r.registrations.toList) w c name
  exact hr.notifyIn_notifyIn (.refl _) (.refl _) fun k => hlayout.visited_toList w c k

/-- Being told of a member again changes nothing, in whatever order the registrations are
visited. -/
def Settled (r : Registry) (w : World) (c : ClassId) (name : String) : Prop :=
  ∀ order : List (ClassId × Registration), order.Perm r.registrations.toList →
    r.notifyIn order w c name = r

/-- Where no two of the classes that see the member share a scope, being told of it in one order
leaves nothing to do in another one. -/
theorem Sound.settled_notifyIn (hr : r.Sound) (each : order.Perm r.registrations.toList)
    (halone : ∀ d d' k, w.hierarchy.isSubclass d c = true → w.hierarchy.isSubclass d' c = true →
      r.Hosts d k → r.Hosts d' k → d = d') :
    (r.notifyIn order w c name).Settled w c name := by
  intro order' each'
  have hlayout := layout_notifyIn each w c name
  have hr' := hr.of_layout hlayout
  have halone' : ∀ d d' k, w.hierarchy.isSubclass d c = true →
      w.hierarchy.isSubclass d' c = true → (r.notifyIn order w c name).Hosts d k →
        (r.notifyIn order w c name).Hosts d' k → d = d' :=
    fun d d' k hsub hsub' hd hd' =>
      halone d d' k hsub hsub' (hlayout.hosts.1 hd) (hlayout.hosts.1 hd')
  have hown : r.notifyIn order w c name = r.notify w c name :=
    hr.notifyIn_eq each (.refl _) halone name
  calc (r.notifyIn order w c name).notifyIn order' w c name
      = (r.notifyIn order w c name).notify w c name := hr'.notifyIn_eq each' (.refl _) halone' name
    _ = r.notifyIn order w c name := by rw [hown, hr.notify_notify]

end Registry

/-- Setting a member a second time changes nothing more. -/
theorem World.setMember_setMember (w : World) (c : ClassId) (name : String) (m : Member) :
    (w.setMember c name m).setMember c name m = w.setMember c name m := by
  have htwice : ((fun k : Class => { k with members := k.members.insert name m }) ∘
      fun k : Class => { k with members := k.members.insert name m }) =
        fun k : Class => { k with members := k.members.insert name m } := by
    funext k
    simp only [Function.comp_apply, Entries.insert_insert]
  simp only [setMember, Hierarchy.setMember, List.modify_modify_eq, htwice]

namespace Stage

variable {licence : Licence} {st : Stage}

/-- At every stage of every run, whatever other code does to the classes, an operation done twice in
a row leaves the registry and the world that it leaves when done once: registering a class into a
scope, whether it is accepted or refused, attaching an instance, detaching one, being told of a
member and setting a member. If no two registered classes at or below the class share a scope, the
last two may visit the registrations in one order the first time and in any other one the second
time. -/
theorem repeated_operation_changes_nothing (reach : Reachable licence st) :
    (∀ c h, (st.registry.enrol st.world c h).1.enrol st.world c h =
      st.registry.enrol st.world c h) ∧
    (∀ c h r', st.registry.register st.world c h = .ok r' →
      r'.register st.world c h = .ok r') ∧
    (∀ i, (st.registry.attach st.world i).attach st.world i = st.registry.attach st.world i) ∧
    (∀ i, (st.registry.detach st.world i).detach st.world i = st.registry.detach st.world i) ∧
    (∀ c name, (st.registry.notify st.world c name).notify st.world c name =
      st.registry.notify st.world c name) ∧
    (∀ c name m w r, st.registry.addMember st.world c name m = (w, r) →
      r.addMember w c name m = (w, r)) ∧
    ∀ c name, (∀ d d' h, st.world.hierarchy.isSubclass d c = true →
        st.world.hierarchy.isSubclass d' c = true →
          st.registry.Enrols d h → st.registry.Enrols d' h → d = d') →
      ∀ order : List (ClassId × Registration), order.Perm st.registry.registrations.toList →
        (st.registry.notifyIn order st.world c name).Settled st.world c name ∧
        ∀ m, (st.world.setMember c name m).setMember c name m = st.world.setMember c name m ∧
          (st.registry.notifyIn order (st.world.setMember c name m) c name).Settled
            (st.world.setMember c name m) c name := by
  have hr := reach.sound
  refine ⟨fun c h => st.registry.enrol_enrol st.world c h,
    fun c h r' => Registry.register_register, hr.attach_attach st.world,
    hr.detach_detach st.world, hr.notify_notify st.world, ?addMember, ?anyOrder⟩
  case addMember =>
    rintro c name m w r hadd
    obtain ⟨rfl, rfl⟩ := Prod.mk.inj hadd
    rw [Registry.addMember, World.setMember_setMember, hr.notify_notify]
  case anyOrder =>
    intro c name halone order each
    have hplaces : ∀ d d' k, st.world.hierarchy.isSubclass d c = true →
        st.world.hierarchy.isSubclass d' c = true →
          st.registry.Hosts d k → st.registry.Hosts d' k → d = d' :=
      fun d d' k hsub hsub' hd hd' =>
        halone d d' _ hsub hsub' (hr.hosts_iff.1 hd) (hr.hosts_iff.1 hd')
    refine ⟨hr.settled_notifyIn each hplaces, fun m => ?_⟩
    refine ⟨st.world.setMember_setMember c name m,
      hr.settled_notifyIn each fun d d' k hsub hsub' => ?_⟩
    -- setting a member leaves every chain, so the same classes see it
    have hchain : ∀ e, (st.world.setMember c name m).hierarchy.isSubclass e c =
        st.world.hierarchy.isSubclass e c := fun e => by
      simp only [World.setMember, Hierarchy.isSubclass, Hierarchy.chain_setMember]
    rw [hchain] at hsub hsub'
    exact hplaces d d' k hsub hsub'

/-- Where other code made a method of the attribute, attaching again and being told of the name
both install the method the first time, and nothing more the second time. -/
theorem repeated_operation_changes_nothing_apart :
    Reachable .free apart ∧
      (apart.registry.scope? sampleHandle).bind (·.delegate? "level") = none ∧
      ((apart.registry.attach apart.world 0).scope? sampleHandle).bind (·.delegate? "level") =
        some (.ofMethod "Guide" "level" sampleMethod) ∧
      (apart.registry.attach apart.world 0).attach apart.world 0 =
        apart.registry.attach apart.world 0 ∧
      ((apart.registry.notify apart.world 0 "level").scope? apartHandle).bind
        (·.delegate? "level") = some (.ofMethod "Scout" "level" sampleMethod) ∧
      (∀ d d' h, apart.world.hierarchy.isSubclass d 0 = true →
        apart.world.hierarchy.isSubclass d' 0 = true →
          apart.registry.Enrols d h → apart.registry.Enrols d' h → d = d') ∧
      (apart.registry.notifyIn apart.registry.registrations.toList.reverse apart.world 0
        "level").Settled apart.world 0 "level" := by
  have halone : ∀ d d' h, apart.world.hierarchy.isSubclass d 0 = true →
      apart.world.hierarchy.isSubclass d' 0 = true →
        apart.registry.Enrols d h → apart.registry.Enrols d' h → d = d' :=
    fun d d' h _ _ => apart_alone d d' h
  obtain ⟨-, -, hattach, -, -, -, horders⟩ := repeated_operation_changes_nothing apart_reachable
  exact ⟨apart_reachable, by decide +kernel, by decide +kernel, hattach 0, by decide +kernel,
    halone, (horders 0 "level" halone _ (List.reverse_perm _)).1⟩

end Stage

end Delegation
