import Delegation.Proofs.Synchrony
/-!
# Whom the contents of a scope belong to

Several classes may be registered into one scope. In every run an active
instance is one of a class that is registered there. If the members of
registered classes and of their ancestors change through the registry only,
every bound value stands under a public attribute of such a class; which class
that is says nothing about the instance the value came from.
-/

namespace Delegation

/-- Publishing a name for several classes keeps the active instance. -/
theorem Scope.active_foldl_place_classes (w : World) (name : String) (ds : List ClassId)
    (s : Scope) : (ds.foldl (fun s d => place w d s name) s).active = s.active :=
  congrArg (fun f => f.2.2) (frame_foldl (fun s d => frame_place w d s name) ds s)

namespace Registry

variable {r r' : Registry} {w : World} {k : Nat} {s' : Scope}

/-- Registering a class keeps the active instances. -/
theorem active_register {c : ClassId} {h : ScopeHandle} (e : r.register w c h = .ok r')
    (hs : r'.scopes[k]? = some s') : ∃ s, r.scopes[k]? = some s ∧ s'.active = s.active := by
  rw [getElem?_scopes_register e] at hs
  split at hs
  · obtain ⟨s, hold, rfl⟩ := Option.map_eq_some_iff.1 hs
    exact ⟨s, hold, Scope.active_foldl_place w c _ s⟩
  · exact ⟨s', hs, rfl⟩

/-- Being told of a member keeps the active instances. -/
theorem active_notifyIn {order : List (ClassId × Registration)} {c : ClassId} {name : String}
    (hs : (r.notifyIn order w c name).scopes[k]? = some s') :
    ∃ s, r.scopes[k]? = some s ∧ s'.active = s.active := by
  by_cases hpublic : r.isPublic name = true
  · rw [getElem?_scopes_notifyIn hpublic] at hs
    obtain ⟨s, hold, rfl⟩ := Option.map_eq_some_iff.1 hs
    exact ⟨s, hold, Scope.active_foldl_place_classes w name _ s⟩
  · rw [notifyIn_of_hidden hpublic] at hs
    exact ⟨s', hs, rfl⟩

/-- An instance that is active after another one was attached is that one, in a scope that its
class is registered into, or was active before. -/
theorem active_attach {i j : InstanceId} (hs : (r.attach w i).scopes[k]? = some s')
    (hj : s'.active = some j) :
    (j = i ∧ ∃ c, w.classOf? i = some c ∧ r.Hosts c k) ∨
      ∃ s, r.scopes[k]? = some s ∧ s.active = some j := by
  cases hfound : r.registrationOf? w i with
  | none =>
    rw [attach_eq, hfound] at hs
    exact .inr ⟨s', hs, hj⟩
  | some e =>
    obtain ⟨c, reg⟩ := e
    obtain ⟨hi, hreg⟩ := registrationOf?_eq_some.1 hfound
    rw [getElem?_scopes_attach hfound] at hs
    split at hs
    · rename_i hk
      obtain ⟨s, -, rfl⟩ := Option.map_eq_some_iff.1 hs
      rw [Scope.active_foldl_place] at hj
      exact .inl ⟨(Option.some.inj hj).symm, c, hi, reg, hreg, hk⟩
    · exact .inr ⟨s', hs, hj⟩

/-- An instance that is active after another one was detached was active before. -/
theorem active_detach {i j : InstanceId} (hs : (r.detach w i).scopes[k]? = some s')
    (hj : s'.active = some j) : ∃ s, r.scopes[k]? = some s ∧ s.active = some j := by
  cases hfound : r.registrationOf? w i with
  | none =>
    rw [detach_eq, hfound] at hs
    exact ⟨s', hs, hj⟩
  | some e =>
    rw [getElem?_scopes_detach hfound] at hs
    split at hs
    · obtain ⟨s, -, rfl⟩ := Option.map_eq_some_iff.1 hs
      rw [Scope.active_foldl_unbind] at hj
      cases hj
    · exact ⟨s', hs, hj⟩

end Registry

/-- Every bound value stands under a public attribute of a class that is registered into the
scope. -/
def Scope.Owned (w : World) (isPublic : String → Bool) (hosts : ClassId → Prop) (s : Scope) :
    Prop :=
  ∀ n, s.get? n ≠ none → isPublic n = true ∧
    ∃ d, hosts d ∧ ∃ v, w.hierarchy.lookup? d n = some (.attribute v)

namespace Scope

variable {w : World} {isPublic : String → Bool} {hosts : ClassId → Prop} {s : Scope}

/-- The value under a name is a part of its entry. -/
theorem get?_eq_entry (s : Scope) (n : String) : s.get? n = (s.entry n).2 := rfl

/-- Unbinding several names takes their values alone. -/
theorem get?_foldl_unbind (names : List String) (s : Scope) (k : String) :
    (names.foldl unbind s).get? k = if k ∈ names then none else s.get? k := by
  rw [get?_eq_entry, entry_foldl_unbind]
  split <;> rfl

/-- Nothing is bound in a new scope. -/
theorem owned_empty (id : ScopeHandle) (name : String) :
    Owned w isPublic hosts (empty id name) := by
  intro n hn
  exact absurd (congrArg Prod.snd (entry_empty id name n)) hn

/-- Bound values have owners where more classes are registered. -/
theorem Owned.mono (h : Owned w isPublic hosts s) {hosts' : ClassId → Prop}
    (hmore : ∀ d, hosts d → hosts' d) : Owned w isPublic hosts' s := by
  intro n hn
  obtain ⟨hpublic, d, hd, hv⟩ := h n hn
  exact ⟨hpublic, d, hmore d hd, hv⟩

/-- Bound values keep their owners while names mean the same for them. -/
theorem Owned.of_same (h : Owned w isPublic hosts s) {w' : World}
    (hsame : ∀ d, hosts d → ∀ n, w'.hierarchy.lookup? d n = w.hierarchy.lookup? d n) :
    Owned w' isPublic hosts s := by
  intro n hn
  obtain ⟨hpublic, d, hd, hv⟩ := h n hn
  exact ⟨hpublic, d, hd, by rwa [hsame d hd n]⟩

/-- Where less is bound, bound values have owners as before. -/
theorem Owned.of_bound (h : Owned w isPublic hosts s) {t : Scope}
    (hless : ∀ n, t.get? n ≠ none → s.get? n ≠ none) : Owned w isPublic hosts t :=
  fun n hn => h n (hless n hn)

/-- Publishing a name changes the value under it and no other. -/
theorem get?_place (w : World) (c : ClassId) (s : Scope) (n k : String) :
    (place w c s n).get? k =
      if k = n then (w.published c s.active n (s.entry n)).2 else s.get? k := by
  rw [get?_eq_entry, entry_place]
  split <;> rfl

/-- A value that is bound under a published name belongs to an attribute of the class, or was
bound before under a name without a meaning. -/
theorem bound_of_place {c : ClassId} {n : String} (hn : (place w c s n).get? n ≠ none) :
    (∃ v, w.hierarchy.lookup? c n = some (.attribute v)) ∨
      w.hierarchy.lookup? c n = none ∧ s.get? n ≠ none := by
  have hentry : (place w c s n).get? n = (w.published c s.active n (s.entry n)).2 := by
    rw [get?_place, if_pos rfl]
  rcases w.hierarchy.lookup?_cases c n with h | ⟨m, h⟩ | ⟨v, h⟩
  · rw [World.published_of_none h] at hentry
    exact .inr ⟨h, fun hnone => hn (hentry.trans hnone)⟩
  · rw [World.published_of_method h] at hentry
    exact absurd hentry hn
  · exact .inl ⟨v, h⟩

/-- Bound values have owners after a public name was published for a registered class. -/
theorem Owned.place (h : Owned w isPublic hosts s) {c : ClassId} (hc : hosts c) {n : String}
    (hpublic : isPublic n = true) : Owned w isPublic hosts (place w c s n) := by
  intro k hk
  by_cases hkn : k = n
  · subst hkn
    rcases bound_of_place hk with hv | ⟨-, hold⟩
    · exact ⟨hpublic, c, hc, hv⟩
    · exact h k hold
  · rw [get?_place, if_neg hkn] at hk
    exact h k hk

/-- Bound values have owners after public names were published for a registered class. -/
theorem Owned.foldl_place (h : Owned w isPublic hosts s) {c : ClassId} (hc : hosts c)
    {names : List String} (hpublic : ∀ n ∈ names, isPublic n = true) :
    Owned w isPublic hosts (names.foldl (Scope.place w c) s) := by
  induction names generalizing s with
  | nil => exact h
  | cons n names ih =>
    exact ih (h.place hc (hpublic n List.mem_cons_self)) fun k hk =>
      hpublic k (List.mem_cons_of_mem _ hk)

/-- A value that is bound under a name published for several classes belongs to an attribute of
one of them, or was bound before under a name without a meaning for any. -/
theorem bound_of_foldl_place {ds : List ClassId} {n : String}
    (hn : (ds.foldl (fun s d => Scope.place w d s n) s).get? n ≠ none) :
    (∃ d ∈ ds, ∃ v, w.hierarchy.lookup? d n = some (.attribute v)) ∨
      (∀ d ∈ ds, w.hierarchy.lookup? d n = none) ∧ s.get? n ≠ none := by
  induction ds generalizing s with
  | nil => exact .inr ⟨fun d hd => absurd hd List.not_mem_nil, hn⟩
  | cons d ds ih =>
    rcases ih hn with ⟨e, he, hv⟩ | ⟨hnone, hplaced⟩
    · exact .inl ⟨e, List.mem_cons_of_mem _ he, hv⟩
    · rcases bound_of_place hplaced with hv | ⟨hd, hold⟩
      · exact .inl ⟨d, List.mem_cons_self, hv⟩
      · exact .inr ⟨List.forall_mem_cons.2 ⟨hd, hnone⟩, hold⟩

/-- Publishing a name for several classes leaves what stands under other names. -/
theorem entry_foldl_place_of_ne {ds : List ClassId} {n k : String} (hk : k ≠ n) :
    (ds.foldl (fun s d => Scope.place w d s n) s).entry k = s.entry k := by
  induction ds generalizing s with
  | nil => rfl
  | cons d ds ih => rw [List.foldl_cons, ih, entry_place, if_neg hk]

/-- Bound values have owners again once a gained name was published for registered classes, among
them all that see the gained member. -/
theorem Owned.gained (h : Owned w isPublic hosts s) {w' : World} {c : ClassId} {name : String}
    (hw : w.Gains w' c name) (hknown : ∀ d, hosts d → w.hierarchy.Knows d)
    (hpublic : isPublic name = true) {ds : List ClassId} (hds : ∀ d ∈ ds, hosts d)
    (hall : ∀ d, hosts d → w'.hierarchy.isSubclass d c = true → d ∈ ds) :
    Owned w' isPublic hosts (ds.foldl (fun s d => Scope.place w' d s name) s) := by
  intro n hn
  by_cases hname : n = name
  · subst hname
    refine ⟨hpublic, ?_⟩
    rcases bound_of_foldl_place hn with ⟨d, hd, hv⟩ | ⟨hnone, hold⟩
    · exact ⟨d, hds d hd, hv⟩
    · -- the owner from before is none of the classes published for, so it does not see the member
      obtain ⟨-, d, hd, v, hv⟩ := h n hold
      refine ⟨d, hd, v, ?_⟩
      by_cases hmem : d ∈ ds
      · rw [hw.lookup?_eq_none (hnone d hmem)] at hv
        cases hv
      · have hsub : w.hierarchy.isSubclass d c = false := by
          rw [← hw.isSubclass (hknown d hd), ← Bool.not_eq_true]
          exact fun hyes => hmem (hall d hd hyes)
        rw [hw.same d (hknown d hd) n (.inr hsub), hv]
  · rw [get?_eq_entry, entry_foldl_place_of_ne hname] at hn
    obtain ⟨hn, d, hd, hv⟩ := h n hn
    exact ⟨hn, d, hd, by rwa [hw.same d (hknown d hd) n (.inl hname)]⟩

end Scope

namespace Stage

variable {licence : Licence} {st : Stage}

/-- At every stage of every run, an active instance is one of a class that is registered into its
scope. -/
theorem Reachable.hosts_of_active (reach : Reachable licence st) {k : Nat} {s : Scope}
    {i : InstanceId} (hs : st.registry.scopes[k]? = some s) (hi : s.active = some i) :
    ∃ c, st.world.classOf? i = some c ∧ st.registry.Hosts c k := by
  induction reach generalizing k s i with
  | start id hiddenMark => simp [Registry.empty] at hs
  | step before next ih =>
    cases next with
    | change h =>
      obtain ⟨c, hc, hhosts⟩ := ih hs hi
      exact ⟨c, h.extends.classOf? hc, hhosts⟩
    | call run h name a body =>
      obtain ⟨c, hc, hhosts⟩ := ih hs hi
      exact ⟨c, body.extends.classOf? hc, hhosts⟩
    | createScope name =>
      rcases Registry.scopes_createScope hs with hold | ⟨-, rfl⟩
      · exact ih hold hi
      · cases hi
    | register known accepted =>
      obtain ⟨old, hold, hactive⟩ := Registry.active_register accepted hs
      obtain ⟨c, hc, hhosts⟩ := ih hold (hactive ▸ hi)
      exact ⟨c, hc, (Registry.hosts_register accepted).2 (.inl hhosts)⟩
    | notify each c name =>
      obtain ⟨old, hold, hactive⟩ := Registry.active_notifyIn hs
      obtain ⟨d, hd, hhosts⟩ := ih hold (hactive ▸ hi)
      exact ⟨d, hd, (Registry.layout_notifyIn each _ c name).hosts.2 hhosts⟩
    | @addMember w r order each c name m =>
      obtain ⟨old, hold, hactive⟩ := Registry.active_notifyIn hs
      obtain ⟨d, hd, hhosts⟩ := ih hold (hactive ▸ hi)
      exact ⟨d, (w.extends_setMember c name m).classOf? hd,
        (Registry.layout_notifyIn each _ c name).hosts.2 hhosts⟩
    | @attach w r i' =>
      rcases Registry.active_attach hs hi with ⟨rfl, c, hc, hhosts⟩ | ⟨old, hold, hactive⟩
      · exact ⟨c, hc, (Registry.layout_attach r w _).hosts.2 hhosts⟩
      · obtain ⟨c, hc, hhosts⟩ := ih hold hactive
        exact ⟨c, hc, (Registry.layout_attach r w i').hosts.2 hhosts⟩
    | @detach w r i' =>
      obtain ⟨old, hold, hactive⟩ := Registry.active_detach hs hi
      obtain ⟨c, hc, hhosts⟩ := ih hold hactive
      exact ⟨c, hc, (Registry.layout_detach r w i').hosts.2 hhosts⟩

/-- All bound values have owners. -/
def Owned (st : Stage) : Prop :=
  ∀ (k : Nat) s, st.registry.scopes[k]? = some s →
    s.Owned st.world st.registry.isPublic fun d => st.registry.Hosts d k

namespace Owned

variable {w w' : World} {r r' : Registry}

/-- All bound values have owners after scopes changed, if the same classes are registered into the
same scopes. -/
theorem of_layout (hlayout : r.Layout r')
    (hscopes : ∀ (k : Nat) s', r'.scopes[k]? = some s' →
      s'.Owned w' r.isPublic fun d => r.Hosts d k) : Owned ⟨w', r'⟩ := by
  intro k s' hs'
  simp only [hlayout.isPublic]
  exact (hscopes k s' hs').mono fun d hd => hlayout.hosts.2 hd

/-- All bound values keep their owners while names mean the same for registered classes. -/
theorem of_same (h : Owned ⟨w, r⟩)
    (hsame : ∀ c reg, r.registration? c = some reg → ∀ n,
      w'.hierarchy.lookup? c n = w.hierarchy.lookup? c n) : Owned ⟨w', r⟩ :=
  fun k s hs => (h k s hs).of_same fun d ⟨reg, hreg, _⟩ => hsame d reg hreg

/-- All bound values have owners when a scope was created. -/
theorem createScope (h : Owned ⟨w, r⟩) (name : String) : Owned ⟨w, (r.createScope name).1⟩ := by
  intro k s hs
  rcases Registry.scopes_createScope hs with hold | ⟨-, rfl⟩
  · exact h k s hold
  · exact Scope.owned_empty _ name

/-- All bound values have owners when a class was registered. -/
theorem register (h : Owned ⟨w, r⟩) {c : ClassId} {handle : ScopeHandle}
    (e : r.register w c handle = .ok r') : Owned ⟨w, r'⟩ := by
  intro k s' hs'
  have hmore : ∀ d, r.Hosts d k → r'.Hosts d k := fun d hd =>
    (Registry.hosts_register e).2 (.inl hd)
  simp only [(Registry.frame_register e).2.1]
  simp only [Registry.getElem?_scopes_register e] at hs'
  split at hs'
  · rename_i hk
    obtain ⟨s, hs, rfl⟩ := Option.map_eq_some_iff.1 hs'
    exact ((h k s hs).mono hmore).foldl_place ((Registry.hosts_register e).2 (.inr ⟨rfl, hk⟩))
      fun n hn => (Registry.mem_publicNames.1 hn).1
  · exact (h k s' hs').mono hmore

/-- All bound values have owners when an instance was attached. -/
theorem attach (h : Owned ⟨w, r⟩) (i : InstanceId) : Owned ⟨w, r.attach w i⟩ := by
  refine of_layout (Registry.layout_attach r w i) fun k s' hs' => ?_
  cases hfound : r.registrationOf? w i with
  | none =>
    rw [Registry.attach_eq, hfound] at hs'
    exact h k s' hs'
  | some e =>
    obtain ⟨c, reg⟩ := e
    have hreg := (Registry.registrationOf?_eq_some.1 hfound).2
    rw [Registry.getElem?_scopes_attach hfound] at hs'
    split at hs'
    · rename_i hk
      obtain ⟨s, hs, rfl⟩ := Option.map_eq_some_iff.1 hs'
      have hactivated : (s.activate (some i)).Owned w r.isPublic fun d => r.Hosts d k := h k s hs
      exact hactivated.foldl_place ⟨reg, hreg, hk⟩ fun n hn => (Registry.mem_publicNames.1 hn).1
    · exact h k s' hs'

/-- All bound values have owners when an instance was detached. -/
theorem detach (h : Owned ⟨w, r⟩) (i : InstanceId) : Owned ⟨w, r.detach w i⟩ := by
  refine of_layout (Registry.layout_detach r w i) fun k s' hs' => ?_
  cases hfound : r.registrationOf? w i with
  | none =>
    rw [Registry.detach_eq, hfound] at hs'
    exact h k s' hs'
  | some e =>
    rw [Registry.getElem?_scopes_detach hfound] at hs'
    split at hs'
    · obtain ⟨s, hs, rfl⟩ := Option.map_eq_some_iff.1 hs'
      refine (h k s hs).of_bound fun n hn hnone => hn ?_
      rw [Scope.get?_foldl_unbind]
      split
      · rfl
      · exact hnone
    · exact h k s' hs'

/-- All bound values have owners when a class may have gained a member and the registry was
told. -/
theorem notifyIn (h : Owned ⟨w, r⟩)
    (hknown : ∀ c reg, r.registration? c = some reg → w.hierarchy.Knows c)
    {order : List (ClassId × Registration)} (each : order.Perm r.registrations.toList)
    {c : ClassId} {name : String} (hw : w.Gains w' c name) :
    Owned ⟨w', r.notifyIn order w' c name⟩ := by
  refine of_layout (Registry.layout_notifyIn each w' c name) fun k s' hs' => ?_
  have hhosted : ∀ d, r.Hosts d k → w.hierarchy.Knows d := fun d ⟨reg, hreg, _⟩ =>
    hknown d reg hreg
  by_cases hpublic : r.isPublic name = true
  · rw [Registry.getElem?_scopes_notifyIn hpublic] at hs'
    obtain ⟨s, hs, rfl⟩ := Option.map_eq_some_iff.1 hs'
    refine (h k s hs).gained hw hhosted hpublic ?_ ?_
    · exact fun d hd => ((Registry.mem_visited_iff_hosts each).1 hd).2
    · exact fun d hd hsub => (Registry.mem_visited_iff_hosts each).2 ⟨hsub, hd⟩
  · rw [Registry.notifyIn_of_hidden hpublic] at hs'
    intro n hn
    obtain ⟨hn, d, hd, hv⟩ := h k s' hs' n hn
    have hne : n ≠ name := fun heq => hpublic (heq ▸ hn)
    exact ⟨hn, d, hd, by rwa [hw.same d (hhosted d hd) n (.inl hne)]⟩

end Owned

/-- At every stage of every run that leaves registered classes and their ancestors to the registry,
every bound value stands under a public attribute of a class that is registered into its scope. -/
theorem Reachable.owned (reach : Reachable .unwatched st) : st.Owned := by
  induction reach with
  | start id hiddenMark =>
    intro k s hs
    simp [Registry.empty] at hs
  | step before next ih =>
    have hclosed := before.closed
    have hknown := before.inStep.known
    have hleft : ∀ {r : Registry} {c : ClassId} {reg : Registration},
        r.registration? c = some reg → ∀ (v : World) (a : ClassId),
        Licence.unwatched r v a → a ∉ v.hierarchy.chain c := fun hreg v a ha =>
      ha _ (hreg ▸ Option.some_ne_none _)
    cases next with
    | change h =>
      exact ih.of_same fun c reg hreg => h.lookup? hclosed (hknown c reg hreg) (hleft hreg _)
    | call run h name a body =>
      exact ih.of_same fun c reg hreg => body.lookup? hclosed (hknown c reg hreg) (hleft hreg)
    | createScope name => exact ih.createScope name
    | register known accepted => exact ih.register accepted
    | notify each c name => exact ih.notifyIn hknown each (.refl _ c name)
    | addMember each c name m => exact ih.notifyIn hknown each (World.gains_setMember _ c name m)
    | attach i => exact ih.attach i
    | detach i => exact ih.detach i

end Stage

end Delegation
