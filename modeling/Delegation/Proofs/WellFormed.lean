import Delegation.Proofs.Republishing
import Delegation.Proofs.Sharing
/-!
# Registries in good order

What holds at every stage of every run, whatever other code does to the
classes and however they share scopes. A name stands for a delegate or for a
value and never for both, it is public, and some class registered into the
scope has a member of that name; exposed names are public member names of
their class. Every handle of a registration is the registry's own, of a scope
that it has, and is listed once. Members come and change but never go, so what
is behind a name may be out of date, but the name itself never is.
-/

namespace Delegation

/-- A name is hidden if there is a mark of hidden names and the name starts with it. -/
def Registry.Hides (r : Registry) (n : String) : Prop :=
  r.hiddenMark ≠ "" ∧ r.hiddenMark.toList <+: n.toList

/-- The public names are those that are not hidden. -/
theorem Registry.isPublic_iff {r : Registry} {n : String} : r.isPublic n = true ↔ ¬ r.Hides n := by
  have hempty : r.hiddenMark.isEmpty = true ↔ r.hiddenMark = "" := String.isEmpty_iff
  simp only [isPublic, Hides, Bool.or_eq_true, hempty, Bool.not_eq_true', ← Bool.not_eq_true,
    List.isPrefixOf_iff_prefix, Classical.not_and_iff_not_or_not, Classical.not_not]

/-- A public name that means something for a class. -/
def Hierarchy.Offers (h : Hierarchy) (isPublic : String → Bool) (c : ClassId) (n : String) : Prop :=
  isPublic n = true ∧ (h.lookup? c n).isSome = true

namespace World

variable {w w' : World} {c : ClassId}

/-- Whatever other code does to a world, a name that means something for a declared class goes on
meaning something. -/
theorem Change.isSome_lookup? {may : ClassId → Prop} (h : Change may w w') (hw : w.Closed)
    (hc : w.hierarchy.Knows c) {n : String} (hn : (w.hierarchy.lookup? c n).isSome = true) :
    (w'.hierarchy.lookup? c n).isSome = true := by
  cases h with
  | declare known declared =>
    obtain ⟨h', hd, rfl⟩ := declareClass_eq_ok declared
    rwa [Hierarchy.lookup?_declare hw.hierarchy hd hc n]
  | create inst known => exact hn
  | setMember a name m allowed => exact Hierarchy.isSome_lookup?_setMember hn
  | setPayload i p => exact hn
  | write journals => exact hn

/-- A name that means something for a declared class goes on meaning something, however many things
other code does. -/
theorem Evolves.isSome_lookup? {may : World → ClassId → Prop} (h : Evolves may w w')
    (hw : w.Closed) (hc : w.hierarchy.Knows c) {n : String}
    (hn : (w.hierarchy.lookup? c n).isSome = true) :
    (w'.hierarchy.lookup? c n).isSome = true := by
  induction h with
  | refl => exact hn
  | step before change ih =>
    exact change.isSome_lookup? (before.closed hw) (before.extends.knows c hc) ih

end World

namespace Scope

variable {w : World} {c : ClassId} {s : Scope} {offered : String → Prop}

/-- No name stands for a delegate and a value at once. -/
def Exclusive (s : Scope) : Prop := ∀ n, s.delegate? n = none ∨ s.get? n = none

/-- A name that was published stands for one thing, or for what it stood for. -/
theorem Exclusive.place (hs : s.Exclusive) (w : World) (c : ClassId) (n : String) :
    (place w c s n).Exclusive := by
  intro k
  have hentry := entry_place w c s n k
  by_cases hk : k = n
  · subst hk
    rw [if_pos rfl] at hentry
    rcases w.hierarchy.lookup?_cases c k with hl | ⟨m, hl⟩ | ⟨v, hl⟩
    · rw [World.published_of_none hl] at hentry
      obtain ⟨hdelegate, hget⟩ := Prod.mk.inj hentry
      rw [hdelegate, hget]
      exact hs k
    · rw [World.published_of_method hl] at hentry
      exact .inr (Prod.mk.inj hentry).2
    · rw [World.published_of_attribute hl] at hentry
      exact .inl (Prod.mk.inj hentry).1
  · rw [if_neg hk] at hentry
    obtain ⟨hdelegate, hget⟩ := Prod.mk.inj hentry
    rw [hdelegate, hget]
    exact hs k

/-- Every operation on a scope keeps delegates and values apart. -/
theorem kept_exclusive : Kept Exclusive where
  empty id name n := by simp [empty, delegate?]
  place w c s n hs := hs.place w c n
  activate s i hs := hs
  unbind s n hs k := by
    have hentry := entry_unbind s n k
    by_cases hk : k = n
    · rw [if_pos hk] at hentry
      exact .inr (Prod.mk.inj hentry).2
    · rw [if_neg hk] at hentry
      obtain ⟨hdelegate, hget⟩ := Prod.mk.inj hentry
      rw [hdelegate, hget]
      exact hs k

/-- Every name that stands for something is offered. -/
def Within (offered : String → Prop) (s : Scope) : Prop :=
  ∀ n, s.entry n ≠ (none, none) → offered n

/-- A name stands for something if there is a value or a delegate under it. -/
theorem contains_iff {n : String} : s.contains n = true ↔ s.entry n ≠ (none, none) := by
  have hbound : s.bindings.contains n = (s.get? n).isSome :=
    Std.ExtTreeMap.contains_eq_isSome_getElem?
  have hinstalled : s.delegates.contains n = (s.delegate? n).isSome :=
    Std.ExtTreeMap.contains_eq_isSome_getElem?
  rw [contains, hbound, hinstalled, entry]
  cases s.get? n <;> cases s.delegate? n <;> simp

/-- Nothing stands under any name of a new scope. -/
theorem within_empty (offered : String → Prop) (id : ScopeHandle) (name : String) :
    Within offered (empty id name) := fun n hn => absurd (entry_empty id name n) hn

/-- Names stay offered where more is offered. -/
theorem Within.mono (h : s.Within offered) {offered' : String → Prop}
    (hmore : ∀ n, offered n → offered' n) : s.Within offered' :=
  fun n hn => hmore n (h n hn)

/-- Names stay offered when one is published that is offered if it means something. -/
theorem Within.place (h : s.Within offered) {n : String}
    (hn : (w.hierarchy.lookup? c n).isSome = true → offered n) :
    (place w c s n).Within offered := by
  intro k hk
  rw [entry_place] at hk
  by_cases hkn : k = n
  · subst hkn
    cases hl : w.hierarchy.lookup? c k with
    | none =>
      rw [if_pos rfl, World.published_of_none hl] at hk
      exact h k hk
    | some m => exact hn (by rw [hl]; rfl)
  · rw [if_neg hkn] at hk
    exact h k hk

/-- Names stay offered when several are published that are offered. -/
theorem Within.foldl_place (h : s.Within offered) {names : List String}
    (hnames : ∀ n ∈ names, offered n) : (names.foldl (Scope.place w c) s).Within offered :=
  List.foldlRecOn names _ h fun _ hs n hn => Within.place hs fun _ => hnames n hn

/-- Names stay offered when one is published for several classes, and is offered if it means
something for any of them. -/
theorem Within.foldl_place_classes (h : s.Within offered) {n : String} {ds : List ClassId}
    (hds : ∀ d ∈ ds, (w.hierarchy.lookup? d n).isSome = true → offered n) :
    (ds.foldl (fun s d => Scope.place w d s n) s).Within offered :=
  List.foldlRecOn ds _ h fun _ hs d hd => Within.place hs (hds d hd)

/-- Names stay offered when values are unbound. -/
theorem Within.foldl_unbind (h : s.Within offered) (names : List String) :
    (names.foldl unbind s).Within offered := by
  intro n hn
  rw [entry_foldl_unbind] at hn
  refine h n fun hnone => hn ?_
  obtain ⟨hdelegate, hget⟩ := Prod.mk.inj hnone
  split
  · rw [hdelegate]
  · rw [entry, hdelegate, hget]

end Scope

/-- The public names of a class are offered by it. -/
theorem Registry.offers_publicNames (r : Registry) (w : World) (c : ClassId) :
    ∀ n ∈ r.publicNames w c, w.hierarchy.Offers r.isPublic c n :=
  fun _ hn => mem_publicNames.1 hn

/-- Names that were counted as exposed or not are offered, if those that were exposed before and
those that were counted are. -/
theorem Hierarchy.offers_of_mem_foldl_exposing {h : Hierarchy} {isPublic : String → Bool}
    {c : ClassId} {names : List String} {exposed : NameSet}
    (hexposed : ∀ n ∈ exposed, h.Offers isPublic c n) (hnames : ∀ n ∈ names, isPublic n = true) :
    ∀ n ∈ names.foldl (h.exposing c) exposed, h.Offers isPublic c n := by
  intro n hn
  rw [mem_foldl_exposing] at hn
  split at hn
  · rename_i hmem
    exact ⟨hnames n hmem.1, hmem.2⟩
  · exact hexposed n hn

namespace Stage

/-- A registry is in good order with the classes. -/
structure WellFormed (st : Stage) : Prop where
  /-- Registered classes were declared. -/
  known : ∀ c reg, st.registry.registration? c = some reg → st.world.hierarchy.Knows c
  /-- What stands in a scope is offered by a class that is registered there. -/
  entries : ∀ (k : Nat) s, st.registry.scopes[k]? = some s →
    s.Within fun n => ∃ d, st.registry.Hosts d k ∧
      st.world.hierarchy.Offers st.registry.isPublic d n
  /-- What is exposed for a class is offered by it. -/
  exposed : ∀ c reg, st.registry.registration? c = some reg →
    ∀ n ∈ reg.exposed, st.world.hierarchy.Offers st.registry.isPublic c n
  /-- A class is registered into a scope once. -/
  nodup : ∀ c reg, st.registry.registration? c = some reg → reg.scopes.Nodup

/-- Without scopes and registrations all is in good order. -/
theorem wellFormed_start (id : Nat) (hiddenMark : String) :
    WellFormed ⟨.empty, .empty id hiddenMark⟩ where
  known c reg h := by simp [Registry.registration?, Registry.empty] at h
  entries k s h := by simp [Registry.empty] at h
  exposed c reg h := by simp [Registry.registration?, Registry.empty] at h
  nodup c reg h := by simp [Registry.registration?, Registry.empty] at h

namespace WellFormed

variable {w w' : World} {r r' : Registry}

/-- All stays in good order in a world that declares no less, and where nothing that meant
something for a declared class has lost its meaning. -/
theorem of_later (h : WellFormed ⟨w, r⟩)
    (hknows : ∀ c, w.hierarchy.Knows c → w'.hierarchy.Knows c)
    (hmeans : ∀ c n, w.hierarchy.Knows c → (w.hierarchy.lookup? c n).isSome = true →
      (w'.hierarchy.lookup? c n).isSome = true) : WellFormed ⟨w', r⟩ where
  known c reg hc := hknows c (h.known c reg hc)
  entries k s hs := (h.entries k s hs).mono fun n ⟨d, ⟨reg, hreg, hk⟩, hpublic, hn⟩ =>
    ⟨d, ⟨reg, hreg, hk⟩, hpublic, hmeans d n (h.known d reg hreg) hn⟩
  exposed c reg hc n hn := by
    obtain ⟨hpublic, hmeaning⟩ := h.exposed c reg hc n hn
    exact ⟨hpublic, hmeans c n (h.known c reg hc) hmeaning⟩
  nodup := h.nodup

/-- All stays in good order when other code does something to the world. -/
theorem change (h : WellFormed ⟨w, r⟩) (hw : w.Closed) {may : ClassId → Prop}
    (hchange : World.Change may w w') : WellFormed ⟨w', r⟩ :=
  h.of_later hchange.extends.knows fun _ _ hc hn => hchange.isSome_lookup? hw hc hn

/-- All stays in good order whatever other code does to the world. -/
theorem evolves (h : WellFormed ⟨w, r⟩) (hw : w.Closed) {may : World → ClassId → Prop}
    (hevolves : World.Evolves may w w') : WellFormed ⟨w', r⟩ :=
  h.of_later hevolves.extends.knows fun _ _ hc hn => hevolves.isSome_lookup? hw hc hn

/-- All is in good order when a scope was created. -/
theorem createScope (h : WellFormed ⟨w, r⟩) (name : String) :
    WellFormed ⟨w, (r.createScope name).1⟩ where
  known := h.known
  entries k s hs := by
    rcases Registry.scopes_createScope hs with hold | ⟨-, rfl⟩
    · exact h.entries k s hold
    · exact Scope.within_empty _ _ name
  exposed := h.exposed
  nodup := h.nodup

/-- What is known of a class that is to be registered, whether it was registered before or not, is
in good order. -/
theorem before_register (h : WellFormed ⟨w, r⟩) (c : ClassId) :
    (∀ n ∈ ((r.registration? c).getD ⟨∅, []⟩).exposed, w.hierarchy.Offers r.isPublic c n) ∧
      ((r.registration? c).getD ⟨∅, []⟩).scopes.Nodup := by
  cases hreg : r.registration? c with
  | none => exact ⟨fun n hn => absurd hn Std.ExtTreeSet.not_mem_empty, List.nodup_nil⟩
  | some reg => exact ⟨h.exposed c reg hreg, h.nodup c reg hreg⟩

/-- All is in good order when a class was registered. -/
theorem register (h : WellFormed ⟨w, r⟩) {c : ClassId} {handle : ScopeHandle}
    (hknown : w.hierarchy.Knows c) (e : r.register w c handle = .ok r') : WellFormed ⟨w, r'⟩ := by
  obtain ⟨-, hpublic, -⟩ := Registry.frame_register e
  have hnames := r.offers_publicNames w c
  -- the registration of the class itself is made or added to, and every other one stays
  have hother : ∀ d reg, d ≠ c → r'.registration? d = some reg → r.registration? d = some reg := by
    intro d reg hdc hd
    rwa [Registry.registration?_register e, if_neg hdc] at hd
  refine ⟨?known, ?entries, ?exposed, ?nodup⟩
  case known =>
    intro d reg hd
    by_cases hdc : d = c
    · exact hdc ▸ hknown
    · exact h.known d reg (hother d reg hdc hd)
  case entries =>
    intro k s' hs'
    have hmore : ∀ n, (∃ d, r.Hosts d k ∧ w.hierarchy.Offers r.isPublic d n) →
        ∃ d, r'.Hosts d k ∧ w.hierarchy.Offers r.isPublic d n := fun n ⟨d, hd, hn⟩ =>
      ⟨d, (Registry.hosts_register e).2 (.inl hd), hn⟩
    simp only [hpublic]
    simp only [Registry.getElem?_scopes_register e] at hs'
    split at hs'
    · rename_i hk
      obtain ⟨s, hs, rfl⟩ := Option.map_eq_some_iff.1 hs'
      refine ((h.entries k s hs).mono hmore).foldl_place fun n hn => ⟨c, ?_, hnames n hn⟩
      exact (Registry.hosts_register e).2 (.inr ⟨rfl, hk⟩)
    · exact (h.entries k s' hs').mono hmore
  case exposed =>
    intro d reg hd
    simp only [hpublic]
    by_cases hdc : d = c
    · subst hdc
      simp only [Registry.registration?_register e, if_true, Option.some.injEq] at hd
      subst hd
      exact Hierarchy.offers_of_mem_foldl_exposing (h.before_register d).1 fun n hn =>
        (hnames n hn).1
    · exact h.exposed d reg (hother d reg hdc hd)
  case nodup =>
    intro d reg hd
    by_cases hdc : d = c
    · subst hdc
      simp only [Registry.registration?_register e, if_true, Option.some.injEq] at hd
      subst hd
      have hold := (h.before_register d).2
      dsimp only
      split
      · exact hold
      · rename_i hnew
        exact List.nodup_append.2 ⟨hold, List.pairwise_singleton _ handle, fun a ha b hb heq =>
          hnew (List.mem_singleton.1 hb ▸ heq ▸ ha)⟩
    · exact h.nodup d reg (hother d reg hdc hd)

/-- All is in good order after scopes and exposed names changed, if the same classes are registered
into the same scopes, and what stands there and is exposed then is offered. -/
theorem of_layout (h : WellFormed ⟨w, r⟩) (hlayout : r.Layout r')
    (hscopes : ∀ (k : Nat) s', r'.scopes[k]? = some s' →
      s'.Within fun n => ∃ d, r.Hosts d k ∧ w.hierarchy.Offers r.isPublic d n)
    (hexposed : ∀ c reg', r'.registration? c = some reg' →
      ∀ n ∈ reg'.exposed, w.hierarchy.Offers r.isPublic c n) : WellFormed ⟨w, r'⟩ where
  known c reg' hc := by
    obtain ⟨reg, hreg, -⟩ := hlayout.exists_registration hc
    exact h.known c reg hreg
  entries k s' hs' := by
    simp only [hlayout.isPublic]
    exact (hscopes k s' hs').mono fun n ⟨d, hd, hn⟩ => ⟨d, hlayout.hosts.2 hd, hn⟩
  exposed c reg' hc := by
    simp only [hlayout.isPublic]
    exact hexposed c reg' hc
  nodup c reg' hc := by
    obtain ⟨reg, hreg, hsame⟩ := hlayout.exists_registration hc
    exact hsame ▸ h.nodup c reg hreg

/-- All is in good order when an instance was attached. -/
theorem attach (h : WellFormed ⟨w, r⟩) (hr : r.Sound) (i : InstanceId) :
    WellFormed ⟨w, r.attach w i⟩ := by
  cases hfound : r.registrationOf? w i with
  | none =>
    rw [Registry.attach_eq, hfound]
    exact h
  | some e =>
    obtain ⟨c, reg⟩ := e
    have hreg := (Registry.registrationOf?_eq_some.1 hfound).2
    have hnames := r.offers_publicNames w c
    refine h.of_layout (Registry.layout_attach r w i) (fun k s' hs' => ?_) fun d reg' hd => ?_
    · rw [Registry.getElem?_scopes_attach hfound] at hs'
      split at hs'
      · rename_i hk
        obtain ⟨s, hs, rfl⟩ := Option.map_eq_some_iff.1 hs'
        have hactivated : (s.activate (some i)).Within fun n =>
            ∃ d, r.Hosts d k ∧ w.hierarchy.Offers r.isPublic d n := h.entries k s hs
        exact hactivated.foldl_place fun n hn => ⟨c, ⟨reg, hreg, hk⟩, hnames n hn⟩
      · exact h.entries k s' hs'
    · rw [Registry.registration?_attach hr hfound] at hd
      split at hd
      · rename_i hdc
        cases hd
        subst hdc
        exact Hierarchy.offers_of_mem_foldl_exposing (h.exposed d reg hreg) fun n hn =>
          (hnames n hn).1
      · exact h.exposed d reg' hd

/-- All is in good order when an instance was detached. -/
theorem detach (h : WellFormed ⟨w, r⟩) (hr : r.Sound) (i : InstanceId) :
    WellFormed ⟨w, r.detach w i⟩ := by
  cases hfound : r.registrationOf? w i with
  | none =>
    rw [Registry.detach_eq, hfound]
    exact h
  | some e =>
    refine h.of_layout (Registry.layout_detach r w i) (fun k s' hs' => ?_) fun d reg' hd => ?_
    · rw [Registry.getElem?_scopes_detach hfound] at hs'
      split at hs'
      · obtain ⟨s, hs, rfl⟩ := Option.map_eq_some_iff.1 hs'
        have hactivated : (s.activate none).Within fun n =>
            ∃ d, r.Hosts d k ∧ w.hierarchy.Offers r.isPublic d n := h.entries k s hs
        exact hactivated.foldl_unbind _
      · exact h.entries k s' hs'
    · rw [Registry.registration?_detach hr hfound] at hd
      exact h.exposed d reg' hd

/-- All is in good order when the registry was told of a member, in whatever order it visits its
registrations. -/
theorem notifyIn (h : WellFormed ⟨w, r⟩) (hr : r.Sound) {order : List (ClassId × Registration)}
    (each : order.Perm r.registrations.toList) (c : ClassId) (name : String) :
    WellFormed ⟨w, r.notifyIn order w c name⟩ := by
  by_cases hpublic : r.isPublic name = true
  · refine h.of_layout (Registry.layout_notifyIn each w c name) (fun k s' hs' => ?_)
      fun d reg' hd => ?_
    · rw [Registry.getElem?_scopes_notifyIn hpublic] at hs'
      obtain ⟨s, hs, rfl⟩ := Option.map_eq_some_iff.1 hs'
      refine (h.entries k s hs).foldl_place_classes fun d hd hmeans => ?_
      exact ⟨d, ((Registry.mem_visited_iff_hosts each).1 hd).2, hpublic, hmeans⟩
    · rw [Registry.registration?_notifyIn hr each hpublic] at hd
      obtain ⟨reg, hreg, rfl⟩ := Option.map_eq_some_iff.1 hd
      split
      · have hnames : ∀ n ∈ [name], r.isPublic n = true := fun n hn =>
          List.mem_singleton.1 hn ▸ hpublic
        exact Hierarchy.offers_of_mem_foldl_exposing (h.exposed d reg hreg) hnames
      · exact h.exposed d reg hreg
  · rw [Registry.notifyIn_of_hidden hpublic]
    exact h

end WellFormed

variable {licence : Licence} {st : Stage}

/-- At every stage of every run, all is in good order. -/
theorem Reachable.wellFormed (reach : Reachable licence st) : st.WellFormed := by
  induction reach with
  | start id hiddenMark => exact wellFormed_start id hiddenMark
  | step before next ih =>
    have hclosed := before.closed
    have hsound := before.sound
    cases next with
    | change h => exact ih.change hclosed h
    | call run h name a body => exact ih.evolves hclosed body
    | createScope name => exact ih.createScope name
    | register known accepted => exact ih.register known accepted
    | notify each c name => exact ih.notifyIn hsound each c name
    | @addMember w r order each c name m =>
      have hlater : WellFormed ⟨w.setMember c name m, r⟩ :=
        ih.of_later (w.extends_setMember c name m).knows fun _ _ _ hn =>
          Hierarchy.isSome_lookup?_setMember hn
      exact hlater.notifyIn hsound each c name
    | attach i => exact ih.attach hsound i
    | detach i => exact ih.detach hsound i

/-- The sample stage after other code made a method of the attribute. -/
def stale : Stage :=
  ⟨sampleWorld.setMember 0 "level" (.method sampleMethod), sample.registry⟩

/-- That stage is one of a run in which other code may set members of any class. -/
theorem stale_reachable : Reachable .free stale := by
  have hchange : World.Change (Licence.free sample.registry sampleWorld) sampleWorld
      (sampleWorld.setMember 0 "level" (.method sampleMethod)) := .setMember 0 "level" _ trivial
  exact (sample_reachable .free).step (.change hchange)

/-- At every stage of every run, whatever other code does to the classes: in each scope no name
stands for a delegate and a value at once, a delegate has the name it stands under, every name that
stands for something is public and a member name of some class registered there, and the active
instance is one of such a class. Each registration has scopes, each of them once and all of them
the registry's own, and its exposed names are public member names of its class. -/
theorem registry_well_formed (reach : Reachable licence st) :
    (∀ h s, st.registry.scope? h = some s →
      (∀ n, s.delegate? n = none ∨ s.get? n = none) ∧
      (∀ n d, s.delegate? n = some d → d.name = n) ∧
      (∀ n, s.contains n = true → ¬ st.registry.Hides n ∧
        ∃ c, st.registry.Enrols c h ∧ n ∈ st.world.hierarchy.memberNames c) ∧
      (∀ i, s.active = some i →
        ∃ c, st.world.classOf? i = some c ∧ st.registry.Enrols c h)) ∧
    (∀ c reg, st.registry.registration? c = some reg →
      reg.scopes ≠ [] ∧ reg.scopes.Nodup ∧
      (∀ h ∈ reg.scopes,
        h.registry = st.registry.id ∧ ∃ s, st.registry.scope? h = some s) ∧
      (∀ n ∈ reg.exposed,
        ¬ st.registry.Hides n ∧ n ∈ st.world.hierarchy.memberNames c)) := by
  have hordered := reach.wellFormed
  have hsound := reach.sound
  have hoffers : ∀ c n, st.world.hierarchy.Offers st.registry.isPublic c n →
      ¬ st.registry.Hides n ∧ n ∈ st.world.hierarchy.memberNames c := fun c n ⟨hpublic, hmeans⟩ =>
    ⟨Registry.isPublic_iff.1 hpublic, Hierarchy.mem_memberNames.2 hmeans⟩
  refine ⟨fun h s hs => ?scope, fun c reg hreg => ?registration⟩
  case scope =>
    obtain ⟨hid, hk⟩ := Registry.scope?_eq_some.1 hs
    have henrols : ∀ c, st.registry.Hosts c h.index → st.registry.Enrols c h := fun _ =>
      (hsound.hosts_iff_of_issued hid).1
    refine ⟨?apart, ?named, ?offered, ?active⟩
    case apart => exact reach.scopes Scope.kept_exclusive h.index s hk
    case named => exact fun n d hd => reach.name_delegate hs hd
    case offered =>
      intro n hn
      obtain ⟨c, hc, hoffered⟩ := hordered.entries h.index s hk n (Scope.contains_iff.1 hn)
      obtain ⟨hpublic, hmember⟩ := hoffers c n hoffered
      exact ⟨hpublic, c, henrols c hc, hmember⟩
    case active =>
      intro i hi
      obtain ⟨c, hclass, hc⟩ := reach.hosts_of_active hk hi
      exact ⟨c, hclass, henrols c hc⟩
  case registration =>
    refine ⟨hsound.nonempty c reg hreg, hordered.nodup c reg hreg, fun h hh => ?_, fun n hn => ?_⟩
    · exact ⟨(hsound.issued c reg hreg h hh).1, hsound.exists_scope hreg hh⟩
    · exact hoffers c n (hordered.exposed c reg hreg n hn)

/-- The value of an attribute stays bound where other code made a method of it, and the name is
still a public member name of a class registered there. -/
theorem registry_well_formed_stale :
    Reachable .free stale ∧ stale.registry.scope? sampleHandle = some sampleScope ∧
      stale.world.hierarchy.lookup? 0 "level" = some (.method sampleMethod) ∧
      sampleScope.get? "level" = some (.int 3) ∧ sampleScope.delegate? "level" = none ∧
      ¬ stale.registry.Hides "level" ∧
      ∃ c, stale.registry.Enrols c sampleHandle ∧
        "level" ∈ stale.world.hierarchy.memberNames c := by
  have hbound : sampleScope.get? "level" = some (.int 3) := by decide +kernel
  have hmeans : stale.world.hierarchy.lookup? 0 "level" = some (.method sampleMethod) := rfl
  obtain ⟨happart, -, hoffered, -⟩ :=
    (registry_well_formed stale_reachable).1 sampleHandle sampleScope sample_scope
  have hdelegate : sampleScope.delegate? "level" = none :=
    (happart "level").resolve_right (by simp [hbound])
  obtain ⟨hpublic, hmember⟩ := hoffered "level" (by decide +kernel)
  exact ⟨stale_reachable, sample_scope, hmeans, hbound, hdelegate, hpublic, hmember⟩

end Stage

end Delegation
