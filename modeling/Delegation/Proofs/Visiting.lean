import Delegation.Proofs.Sharing
import Delegation.Proofs.WellFormed
/-!
# The order in which registrations are visited

A registry that is told of a member visits its registrations one after the
other, and each visit publishes the name in the scopes of one class. What a
scope becomes depends on the classes that are published there, and what a
registration becomes on itself alone. So the order does not matter where no
two of the classes that see the member share a scope: each scope is visited
for one class or for none. In every order, only what stands and is exposed
under that one name can change, and only for classes that see the member.
-/

namespace Delegation

/-- Publishing a name for one class is the same in any order, and however often it is done. -/
theorem Scope.foldl_place_congr (w : World) (name : String) {ds ds' : List ClassId}
    (hsame : ∀ d, d ∈ ds ↔ d ∈ ds') (halone : ∀ d ∈ ds, ∀ d' ∈ ds, d = d') (s : Scope) :
    ds.foldl (fun s d => place w d s name) s = ds'.foldl (fun s d => place w d s name) s := by
  by_cases hnil : ds = []
  · have hnil' : ds' = [] := List.eq_nil_iff_forall_not_mem.2 fun d hd => by
      have hmem : d ∈ ds := (hsame d).2 hd
      rw [hnil] at hmem
      exact List.not_mem_nil hmem
    rw [hnil, hnil']
  · obtain ⟨c, hc⟩ := List.exists_mem_of_ne_nil ds hnil
    have hsole : ∀ d ∈ ds, d = c := fun d hd => halone d hd c hc
    have hsole' : ∀ d ∈ ds', d = c := fun d hd => hsole d ((hsame d).2 hd)
    have hnil' : ds' ≠ [] := List.ne_nil_of_mem ((hsame c).1 hc)
    rw [foldl_place_of_sole w name hsole hnil, foldl_place_of_sole w name hsole' hnil']

namespace Registry

variable {r : Registry} {w : World} {c : ClassId} {name : String}
  {order order' : List (ClassId × Registration)}

/-- What a scope becomes that is found by its handle. -/
theorem scope?_notifyIn (each : order.Perm r.registrations.toList)
    (hpublic : r.isPublic name = true) (h : ScopeHandle) :
    (r.notifyIn order w c name).scope? h = (r.scope? h).map fun s =>
      (visited w c order h.index).foldl (fun s d => Scope.place w d s name) s := by
  refine Option.ext fun s' => ?_
  rw [scope?_eq_some, getElem?_scopes_notifyIn hpublic, (layout_notifyIn each w c name).id,
    Option.map_eq_some_iff, Option.map_eq_some_iff]
  constructor
  · rintro ⟨hid, s, hs, rfl⟩
    exact ⟨s, scope?_eq_some.2 ⟨hid, hs⟩, rfl⟩
  · rintro ⟨s, hs, rfl⟩
    obtain ⟨hid, hk⟩ := scope?_eq_some.1 hs
    exact ⟨hid, s, hk, rfl⟩

/-- A registry before and after it was told of a name of a class. -/
structure Told (w : World) (c : ClassId) (name : String) (r r' : Registry) : Prop where
  /-- The same classes are registered into the same scopes, and the registry issues the same
  handles. -/
  layout : Layout r r'
  /-- A scope that no class at or below the class is registered into is found as it was. -/
  scopes : ∀ h, (∀ d, w.hierarchy.isSubclass d c = true → ¬ r.Enrols d h) →
    r'.scope? h = r.scope? h
  /-- A registration of a class that is not at or below the class stays. -/
  registrations : ∀ d, ¬ w.hierarchy.isSubclass d c = true →
    r'.registration? d = r.registration? d
  /-- A scope keeps its handle, its name, its active instance and what stands under other
  names. -/
  entries : ∀ h s, r.scope? h = some s → ∃ s', r'.scope? h = some s' ∧ s'.frame = s.frame ∧
    ∀ n, n ≠ name → s'.delegate? n = s.delegate? n ∧ s'.get? n = s.get? n
  /-- Other names are exposed as they were. -/
  exposed : ∀ d reg reg', r.registration? d = some reg → r'.registration? d = some reg' →
    ∀ n, n ≠ name → (n ∈ reg'.exposed ↔ n ∈ reg.exposed)

/-- A registry that stays as it is changes in nothing. -/
theorem Told.refl (w : World) (c : ClassId) (name : String) (r : Registry) :
    Told w c name r r where
  layout := .refl r
  scopes _ _ := rfl
  registrations _ _ := rfl
  entries _ s hs := ⟨s, hs, rfl, fun _ _ => ⟨rfl, rfl⟩⟩
  exposed d reg reg' hreg hreg' n _ := by
    obtain rfl : reg = reg' := Option.some.inj (hreg.symm.trans hreg')
    rfl

/-- Being told of a member changes what it is to change and nothing else, in whatever order the
registrations are visited. -/
theorem Sound.told_notifyIn (hr : Sound r) (each : order.Perm r.registrations.toList) (w : World)
    (c : ClassId) (name : String) : Told w c name r (r.notifyIn order w c name) := by
  by_cases hpublic : r.isPublic name = true
  · refine ⟨layout_notifyIn each w c name, ?scopes, ?registrations, ?entries, ?exposed⟩
    case scopes =>
      intro h hnone
      rw [scope?_notifyIn each hpublic]
      cases hs : r.scope? h with
      | none => rfl
      | some s =>
        have hid : h.registry = r.id := (scope?_eq_some.1 hs).1
        have hnobody : visited w c order h.index = [] :=
          List.eq_nil_iff_forall_not_mem.2 fun d hd => by
            obtain ⟨hsub, hhosts⟩ := (mem_visited_iff_hosts each).1 hd
            exact hnone d hsub ((hr.hosts_iff_of_issued hid).1 hhosts)
        rw [hnobody]
        rfl
    case registrations =>
      intro d hsub
      rw [registration?_notifyIn hr each hpublic]
      simp only [if_neg hsub, Option.map_id']
    case entries =>
      intro h s hs
      let s' := (visited w c order h.index).foldl (fun s d => Scope.place w d s name) s
      have hfound : (r.notifyIn order w c name).scope? h = some s' := by
        rw [scope?_notifyIn each hpublic, hs]
        rfl
      have hframe : s'.frame = s.frame :=
        Scope.frame_foldl (fun s d => Scope.frame_place w d s name) _ s
      have hentry : ∀ n, n ≠ name → s'.entry n = s.entry n := fun n hn =>
        Scope.entry_foldl_place_of_ne hn
      exact ⟨s', hfound, hframe, fun n hn => Prod.mk.inj (hentry n hn)⟩
    case exposed =>
      intro d reg reg' hreg hreg' n hn
      rw [registration?_notifyIn hr each hpublic, hreg] at hreg'
      obtain rfl := Option.some.inj hreg'
      dsimp only
      by_cases hsub : w.hierarchy.isSubclass d c = true
      · rw [if_pos hsub, Hierarchy.mem_exposing, if_neg fun hboth => hn hboth.1]
      · rw [if_neg hsub]
  · rw [notifyIn_of_hidden hpublic]
    exact .refl w c name r

/-- The order of the visits does not matter where no two classes that see the member share a
scope. -/
theorem Sound.notifyIn_eq (hr : Sound r) (each : order.Perm r.registrations.toList)
    (each' : order'.Perm r.registrations.toList)
    (halone : ∀ d d' k, w.hierarchy.isSubclass d c = true → w.hierarchy.isSubclass d' c = true →
      r.Hosts d k → r.Hosts d' k → d = d') (name : String) :
    r.notifyIn order w c name = r.notifyIn order' w c name := by
  by_cases hpublic : r.isPublic name = true
  · have hlayout : Layout (r.notifyIn order' w c name) (r.notifyIn order w c name) :=
      (layout_notifyIn each' w c name).symm.trans (layout_notifyIn each w c name)
    refine hlayout.ext (fun k => ?scope) fun d => ?registration
    case scope =>
      have hsame : ∀ d, d ∈ visited w c order k ↔ d ∈ visited w c order' k := fun d =>
        (mem_visited_iff_hosts each).trans (mem_visited_iff_hosts each').symm
      have hone : ∀ d ∈ visited w c order k, ∀ d' ∈ visited w c order k, d = d' := by
        intro d hd d' hd'
        obtain ⟨hsub, hhosts⟩ := (mem_visited_iff_hosts each).1 hd
        obtain ⟨hsub', hhosts'⟩ := (mem_visited_iff_hosts each).1 hd'
        exact halone d d' k hsub hsub' hhosts hhosts'
      have hvisits : (fun s => (visited w c order k).foldl (fun s d => Scope.place w d s name) s) =
          fun s => (visited w c order' k).foldl (fun s d => Scope.place w d s name) s :=
        funext (Scope.foldl_place_congr w name hsame hone)
      rw [getElem?_scopes_notifyIn hpublic, getElem?_scopes_notifyIn hpublic, hvisits]
    case registration =>
      rw [registration?_notifyIn hr each hpublic, registration?_notifyIn hr each' hpublic]
  · rw [notifyIn_of_hidden hpublic, notifyIn_of_hidden hpublic]

/-- A scope of a class that sees the member becomes what publishing the name for that class makes of
it, if no other class that sees the member is registered there. -/
theorem scope?_notifyIn_of_alone (each : order.Perm r.registrations.toList)
    (hpublic : r.isPublic name = true) {d : ClassId} {h : ScopeHandle}
    (hsub : w.hierarchy.isSubclass d c = true) (hhosts : r.Hosts d h.index)
    (halone : ∀ d', w.hierarchy.isSubclass d' c = true → r.Hosts d' h.index → d' = d) :
    (r.notifyIn order w c name).scope? h = (r.scope? h).map (Scope.place w d · name) := by
  have hsole : ∀ d' ∈ visited w c order h.index, d' = d := by
    intro d' hd'
    obtain ⟨hsub', hhosts'⟩ := (mem_visited_iff_hosts each).1 hd'
    exact halone d' hsub' hhosts'
  have hvisited : d ∈ visited w c order h.index :=
    (mem_visited_iff_hosts each).2 ⟨hsub, hhosts⟩
  have honce : (fun s => (visited w c order h.index).foldl (fun s d => Scope.place w d s name) s) =
      (Scope.place w d · name) :=
    funext (Scope.foldl_place_of_sole w name hsole (List.ne_nil_of_mem hvisited))
  rw [scope?_notifyIn each hpublic, honce]

end Registry

namespace Stage

variable {licence : Licence} {st : Stage}

/-- At every stage of every run, whatever other code does to the classes: if no two registered
classes at or below a class share a scope, being told of a name of that class leads to one registry
in whatever order the registrations are visited. In it, a scope of one of these classes is what
publishing the name for that class makes of it. Scopes that none of these classes is registered into
and registrations of other classes are as they were, and so are all active instances and whatever
stands or is exposed under other names. -/
theorem notify_in_any_order (reach : Reachable licence st) (c : ClassId) (name : String)
    (halone : ∀ d d' h, st.world.hierarchy.isSubclass d c = true →
      st.world.hierarchy.isSubclass d' c = true →
        st.registry.Enrols d h → st.registry.Enrols d' h → d = d') :
    (∀ order : List (ClassId × Registration), order.Perm st.registry.registrations.toList →
      st.registry.notifyIn order st.world c name = st.registry.notify st.world c name) ∧
    (st.registry.isPublic name = true → ∀ d h, st.world.hierarchy.isSubclass d c = true →
      st.registry.Enrols d h → (st.registry.notify st.world c name).scope? h =
        (st.registry.scope? h).map (Scope.place st.world d · name)) ∧
    st.registry.Told st.world c name (st.registry.notify st.world c name) := by
  have hr := reach.sound
  have hown : st.registry.registrations.toList.Perm st.registry.registrations.toList := .refl _
  have hplaces : ∀ d d' k, st.world.hierarchy.isSubclass d c = true →
      st.world.hierarchy.isSubclass d' c = true →
        st.registry.Hosts d k → st.registry.Hosts d' k → d = d' :=
    fun d d' k hsub hsub' hd hd' =>
      halone d d' _ hsub hsub' (hr.hosts_iff.1 hd) (hr.hosts_iff.1 hd')
  rw [Registry.notify_eq]
  refine ⟨fun order each => hr.notifyIn_eq each hown hplaces name, ?published,
    hr.told_notifyIn hown st.world c name⟩
  case published =>
    intro hpublic d h hsub henrols
    exact Registry.scope?_notifyIn_of_alone hown hpublic hsub henrols.hosts
      fun d' hsub' hhosts' => hplaces d' d h.index hsub' hsub hhosts' henrols.hosts

/-- The sample world with a class below the first one. -/
def apartWorld : World :=
  { sampleWorld with
    hierarchy := ⟨sampleWorld.hierarchy.classes ++ [⟨"Scout", [0], [0], ∅⟩]⟩ }

/-- The sample registry with a second scope. -/
def apartOpened : Registry := (sample.registry.createScope "camp").1

/-- The handle of the second scope. -/
def apartHandle : ScopeHandle := ⟨7, 1⟩

/-- That registry with the second class registered into its second scope. -/
def apartRegistered : Registry :=
  (apartOpened.register apartWorld 1 apartHandle).toOption.getD apartOpened

/-- Each class has a scope of its own, and other code made a method of the attribute. -/
def apart : Stage :=
  ⟨apartWorld.setMember 0 "level" (.method sampleMethod), apartRegistered⟩

/-- That stage is one of a run in which other code may set members of any class. -/
theorem apart_reachable : Reachable .free apart := by
  have hancestors : Ancestry.ancestors? sampleWorld.hierarchy.chain [0] = some [0] := by
    decide +kernel
  have hdeclare : sampleWorld.declareClass "Scout" [0] ∅ = .ok apartWorld := by
    rw [World.declareClass, Hierarchy.declare, hancestors]
    rfl
  have hknown : ∀ b ∈ [0], sampleWorld.hierarchy.Knows b := by decide
  have hclass : Reachable .free ⟨apartWorld, sample.registry⟩ :=
    (sample_reachable .free).step (.change (.declare hknown hdeclare))
  have hscope : Reachable .free ⟨apartWorld, apartOpened⟩ := hclass.step (.createScope "camp")
  have hregister : apartOpened.register apartWorld 1 apartHandle = .ok apartRegistered := rfl
  have hregistered : Reachable .free ⟨apartWorld, apartRegistered⟩ :=
    hscope.step (.register (by decide) hregister)
  exact hregistered.step (.change (.setMember 0 "level" _ trivial))

/-- The two classes are registered into one scope each. -/
theorem apart_enrols (c : ClassId) (h : ScopeHandle) :
    apart.registry.Enrols c h ↔ c = 0 ∧ h = sampleHandle ∨ c = 1 ∧ h = apartHandle := by
  have hregistrations : apart.registry.registrations =
      Std.ExtTreeMap.insert
        (Std.ExtTreeMap.insert ∅ 0 ⟨Std.ExtTreeSet.insert ∅ "level", [sampleHandle]⟩)
        1 ⟨Std.ExtTreeSet.insert ∅ "level", [apartHandle]⟩ := by
    decide +kernel
  rw [Registry.Enrols, Registry.registration?, hregistrations, Std.ExtTreeMap.getElem?_insert,
    Std.ExtTreeMap.getElem?_insert]
  by_cases hzero : c = 0
  · simp [hzero]
  · by_cases hone : c = 1
    · simp [hone]
    · simp [hzero, hone, Ne.symm hzero, Ne.symm hone]

/-- No two classes of that stage share a scope. -/
theorem apart_alone (d d' : ClassId) (h : ScopeHandle) (hd : apart.registry.Enrols d h)
    (hd' : apart.registry.Enrols d' h) : d = d' := by
  have hne : sampleHandle ≠ apartHandle := by decide
  rcases (apart_enrols d h).1 hd with ⟨rfl, rfl⟩ | ⟨rfl, rfl⟩
  · rcases (apart_enrols d' sampleHandle).1 hd' with ⟨rfl, -⟩ | ⟨-, hsame⟩
    · rfl
    · exact absurd hsame hne
  · rcases (apart_enrols d' apartHandle).1 hd' with ⟨-, hsame⟩ | ⟨rfl, -⟩
    · exact absurd hsame hne.symm
    · rfl

/-- The class below is visited before the class that gained the member, and both of their scopes
get the new method. -/
theorem notify_in_any_order_apart :
    Reachable .free apart ∧
      (∀ d d' h, apart.world.hierarchy.isSubclass d 0 = true →
        apart.world.hierarchy.isSubclass d' 0 = true →
          apart.registry.Enrols d h → apart.registry.Enrols d' h → d = d') ∧
      apart.registry.notifyIn apart.registry.registrations.toList.reverse apart.world 0 "level" =
        apart.registry.notify apart.world 0 "level" ∧
      apart.registry.Told apart.world 0 "level"
        (apart.registry.notify apart.world 0 "level") ∧
      ((apart.registry.notify apart.world 0 "level").scope? sampleHandle).bind
        (·.delegate? "level") = some (.ofMethod "Guide" "level" sampleMethod) ∧
      ((apart.registry.notify apart.world 0 "level").scope? apartHandle).bind
        (·.delegate? "level") = some (.ofMethod "Scout" "level" sampleMethod) := by
  have halone : ∀ d d' h, apart.world.hierarchy.isSubclass d 0 = true →
      apart.world.hierarchy.isSubclass d' 0 = true →
        apart.registry.Enrols d h → apart.registry.Enrols d' h → d = d' :=
    fun d d' h _ _ => apart_alone d d' h
  obtain ⟨horders, -, htold⟩ := notify_in_any_order apart_reachable 0 "level" halone
  exact ⟨apart_reachable, halone, horders _ (List.reverse_perm _), htold, by decide +kernel,
    by decide +kernel⟩

end Stage

end Delegation
