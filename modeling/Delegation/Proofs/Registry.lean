import Delegation.Proofs.Scope
/-!
# What a registry's operations do

Each operation scope by scope and registration by registration. An operation
on a class's registration changes the scopes of that registration in one way
and leaves every other scope; it can change which names are exposed, but never
which scopes a class is registered in. `Registry.Layout` collects what no
operation but `register` and `createScope` changes.
-/

namespace Delegation

/-- What stands in a list with one more element stood there before or is that last one. -/
theorem getElem?_concat {α : Type} {l : List α} {a b : α} {k : Nat} (h : (l ++ [a])[k]? = some b) :
    l[k]? = some b ∨ k = l.length ∧ b = a := by
  by_cases hk : k < l.length
  · exact .inl (by rwa [List.getElem?_append_left hk] at h)
  · rw [List.getElem?_append_right (Nat.not_lt.1 hk), List.getElem?_singleton] at h
    split at h
    · rename_i hzero
      exact .inr ⟨by omega, (Option.some.inj h).symm⟩
    · cases h

namespace Registry

/-- A handle finds the scope at its place if the registry issued it. -/
theorem scope?_eq_some {r : Registry} {h : ScopeHandle} {s : Scope} :
    r.scope? h = some s ↔ h.registry = r.id ∧ r.scopes[h.index]? = some s := by
  unfold scope?
  constructor
  · intro hs
    split at hs
    · rename_i index hslot
      obtain ⟨hid, rfl, -⟩ := slot_eq_ok hslot
      exact ⟨hid, hs⟩
    · cases hs
  · rintro ⟨hid, hs⟩
    have hslot : r.slot h = .ok h.index := if_pos ⟨hid, (List.getElem?_eq_some_iff.1 hs).1⟩
    rw [hslot]
    exact hs

/-- A scope is an older one, or new and empty after one was created. -/
theorem scopes_createScope {r : Registry} {name : String} {k : Nat} {s : Scope}
    (hs : (r.createScope name).1.scopes[k]? = some s) :
    r.scopes[k]? = some s ∨ k = r.scopes.length ∧ s = .empty (r.createScope name).2 name :=
  getElem?_concat hs

section Update

variable {change : NameSet → Scope → NameSet × Scope}

/-- Changing scopes keeps their number. -/
theorem length_foldl_updateScope (hs : List ScopeHandle) (x : NameSet × List Scope) :
    (hs.foldl (updateScope change) x).2.length = x.2.length := by
  induction hs generalizing x with
  | nil => rfl
  | cons h hs ih =>
    rw [List.foldl_cons, ih, updateScope]
    split
    · exact List.length_set
    · rfl

/-- A change that does the same to a scope each time, as long as the exposed names are good, is
made once in every scope of a list of handles and in no other. -/
theorem getElem?_foldl_updateScope (good : NameSet → Prop) {f : Scope → Scope}
    (hchange : ∀ exposed s, good exposed →
      good (change exposed s).1 ∧ (change exposed s).2 = f s)
    (hf : ∀ s, f (f s) = f s) (hs : List ScopeHandle) {x : NameSet × List Scope} (hx : good x.1)
    (k : Nat) : (hs.foldl (updateScope change) x).2[k]? =
      if k ∈ hs.map (·.index) then x.2[k]?.map f else x.2[k]? := by
  induction hs generalizing x with
  | nil => simp
  | cons h hs ih =>
    rw [List.foldl_cons]
    cases hk : x.2[h.index]? with
    | none =>
      have hsame : updateScope change x h = x := by simp [updateScope, hk]
      rw [hsame, ih hx]
      by_cases hkh : k = h.index
      · simp [hkh, hk]
      · simp [hkh]
    | some s =>
      obtain ⟨hgood, hdone⟩ := hchange x.1 s hx
      have hnext : updateScope change x h = ((change x.1 s).1, x.2.set h.index (f s)) := by
        simp [updateScope, hk, hdone]
      have hlt : h.index < x.2.length := (List.getElem?_eq_some_iff.1 hk).1
      rw [hnext, ih hgood]
      by_cases hkh : k = h.index
      · subst hkh
        -- a later handle may name this place again, where nothing more is done
        rw [List.getElem?_set_self hlt, hk]
        simp [hf]
      · rw [List.getElem?_set_ne (Ne.symm hkh)]
        simp [hkh]

/-- A change that does the same to the exposed names each time is made once, if there is any scope
to make it in. -/
theorem exposed_foldl_updateScope (g : NameSet → NameSet)
    (hchange : ∀ exposed s, (change exposed s).1 = g exposed)
    (hg : ∀ exposed, g (g exposed) = g exposed) {hs : List ScopeHandle} (hne : hs ≠ [])
    {x : NameSet × List Scope} (hlt : ∀ h ∈ hs, h.index < x.2.length) :
    (hs.foldl (updateScope change) x).1 = g x.1 := by
  induction hs generalizing x with
  | nil => exact absurd rfl hne
  | cons h hs ih =>
    have hnext : (updateScope change x h).1 = g x.1 := by
      rw [updateScope, List.getElem?_eq_getElem (hlt h List.mem_cons_self)]
      exact hchange _ _
    have hlength : (updateScope change x h).2.length = x.2.length :=
      length_foldl_updateScope [h] x
    rw [List.foldl_cons]
    by_cases hs' : hs = []
    · rw [hs', List.foldl_nil, hnext]
    · rw [ih hs' fun h' hh => hlength ▸ hlt h' (List.mem_cons_of_mem _ hh), hnext, hg]

/-- Changing a class's scopes changes no registration but that class's exposed names. -/
theorem registration?_updateRegistered (r : Registry) (c : ClassId) (reg : Registration)
    (d : ClassId) : (r.updateRegistered c reg change).registration? d =
      if d = c then
        some { reg with
          exposed := (reg.scopes.foldl (updateScope change) (reg.exposed, r.scopes)).1 }
      else r.registration? d := by
  simp only [registration?, updateRegistered]
  rw [Std.ExtTreeMap.getElem?_insert]
  by_cases h : d = c
  · simp [h]
  · simp [h, Ne.symm h]

/-- A change that does the same to a scope each time is made in the scopes of the registration and
in no others. -/
theorem getElem?_scopes_updateRegistered (good : NameSet → Prop) {f : Scope → Scope}
    (hchange : ∀ exposed s, good exposed →
      good (change exposed s).1 ∧ (change exposed s).2 = f s)
    (hf : ∀ s, f (f s) = f s) (r : Registry) (c : ClassId) {reg : Registration}
    (hgood : good reg.exposed) (k : Nat) :
    (r.updateRegistered c reg change).scopes[k]? =
      if k ∈ reg.scopes.map (·.index) then r.scopes[k]?.map f else r.scopes[k]? :=
  getElem?_foldl_updateScope good hchange hf reg.scopes hgood k

end Update

/-- What stays when instances come and go and members are published: the registry's identity, the
number of its scopes, and which classes are registered where. -/
structure Layout (r r' : Registry) : Prop where
  /-- The registry issues the same handles. -/
  id : r'.id = r.id
  /-- The same names are hidden. -/
  hiddenMark : r'.hiddenMark = r.hiddenMark
  /-- There are as many scopes. -/
  length : r'.scopes.length = r.scopes.length
  /-- The same classes are registered into the same scopes. -/
  scopes : ∀ c, (r'.registration? c).map (·.scopes) = (r.registration? c).map (·.scopes)

/-- A registry has its own layout. -/
theorem Layout.refl (r : Registry) : Layout r r := ⟨rfl, rfl, rfl, fun _ => rfl⟩

/-- A registry that has another one's layout lends it its own. -/
theorem Layout.symm {r r' : Registry} (h : Layout r r') : Layout r' r where
  id := h.id.symm
  hiddenMark := h.hiddenMark.symm
  length := h.length.symm
  scopes c := (h.scopes c).symm

/-- What keeps the layout keeps it over several changes. -/
theorem Layout.trans {r r' r'' : Registry} (h : Layout r r') (h' : Layout r' r'') :
    Layout r r'' where
  id := h'.id.trans h.id
  hiddenMark := h'.hiddenMark.trans h.hiddenMark
  length := h'.length.trans h.length
  scopes c := (h'.scopes c).trans (h.scopes c)

/-- The same names are public. -/
theorem Layout.isPublic {r r' : Registry} (h : Layout r r') : r'.isPublic = r.isPublic := by
  funext n
  rw [Registry.isPublic, Registry.isPublic, h.hiddenMark]

/-- A registered class was registered, into the same scopes. -/
theorem Layout.exists_registration {r r' : Registry} (h : Layout r r') {c : ClassId}
    {reg' : Registration} (hc : r'.registration? c = some reg') :
    ∃ reg, r.registration? c = some reg ∧ reg.scopes = reg'.scopes := by
  have hscopes := h.scopes c
  rw [hc] at hscopes
  exact Option.map_eq_some_iff.1 hscopes.symm

/-- Changing the scopes of a registration keeps the layout. -/
theorem Layout.updateRegistered {r r' : Registry} (h : Layout r r') {c : ClassId}
    {reg : Registration} (hc : r.registration? c = some reg)
    (change : NameSet → Scope → NameSet × Scope) :
    Layout r (r'.updateRegistered c reg change) where
  id := h.id
  hiddenMark := h.hiddenMark
  length := (length_foldl_updateScope reg.scopes (reg.exposed, r'.scopes)).trans h.length
  scopes d := by
    rw [registration?_updateRegistered]
    by_cases hd : d = c
    · rw [if_pos hd, hd, hc]
      rfl
    · rw [if_neg hd, h.scopes]

/-- Registries of one layout are the same if they have the same scopes and the same
registrations. -/
theorem Layout.ext {r r' : Registry} (h : Layout r r')
    (hscopes : ∀ k : Nat, r'.scopes[k]? = r.scopes[k]?)
    (hregistrations : ∀ c, r'.registration? c = r.registration? c) : r' = r := by
  have hlist : r'.scopes = r.scopes := List.ext_getElem? hscopes
  have hmap : r'.registrations = r.registrations := Std.ExtTreeMap.ext_getElem? hregistrations
  obtain ⟨hid, hmark⟩ := h
  cases r
  cases r'
  cases hid
  cases hmark
  cases hlist
  cases hmap
  rfl

/-- The registration of an instance's class. -/
def registrationOf? (r : Registry) (w : World) (i : InstanceId) :
    Option (ClassId × Registration) := do
  let c ← w.classOf? i
  let reg ← r.registration? c
  return (c, reg)

/-- An instance's class and what it is registered as. -/
theorem registrationOf?_eq_some {r : Registry} {w : World} {i : InstanceId} {c : ClassId}
    {reg : Registration} : r.registrationOf? w i = some (c, reg) ↔
      w.classOf? i = some c ∧ r.registration? c = some reg := by
  unfold registrationOf?
  cases w.classOf? i with
  | none => simp
  | some c' =>
    cases hc : r.registration? c' with
    | none =>
      simp only [Option.bind_eq_bind, Option.bind_some, hc, Option.bind_none, Option.some.injEq]
      constructor
      · intro h
        cases h
      · rintro ⟨rfl, h⟩
        rw [hc] at h
        cases h
    | some reg' =>
      simp only [Option.bind_eq_bind, Option.bind_some, hc, Option.pure_def, Option.some.injEq,
        Prod.mk.injEq]
      constructor
      · rintro ⟨rfl, rfl⟩
        exact ⟨rfl, hc⟩
      · rintro ⟨rfl, h⟩
        rw [hc] at h
        exact ⟨rfl, Option.some.inj h⟩

/-- What attaching an instance does to each scope of its class's registration. -/
theorem attach_eq (r : Registry) (w : World) (i : InstanceId) : r.attach w i =
    match r.registrationOf? w i with
    | some (c, reg) => r.updateRegistered c reg fun exposed s =>
        (s.activate (some i)).publishAll w c (r.publicNames w c) exposed
    | none => r := by
  unfold attach registrationOf?
  cases w.classOf? i with
  | none => rfl
  | some c => cases hc : r.registration? c <;> simp [hc]

/-- What detaching an instance does to each scope of its class's registration. -/
theorem detach_eq (r : Registry) (w : World) (i : InstanceId) : r.detach w i =
    match r.registrationOf? w i with
    | some (c, reg) => r.updateRegistered c reg fun exposed s =>
        (exposed, exposed.toList.foldl Scope.unbind (s.activate none))
    | none => r := by
  unfold detach registrationOf?
  cases w.classOf? i with
  | none => rfl
  | some c => cases hc : r.registration? c <;> simp [hc]

/-- Attaching an instance keeps the layout. -/
theorem layout_attach (r : Registry) (w : World) (i : InstanceId) : Layout r (r.attach w i) := by
  rw [attach_eq]
  cases h : r.registrationOf? w i with
  | none => exact .refl r
  | some e => exact (Layout.refl r).updateRegistered (registrationOf?_eq_some.1 h).2 _

/-- Detaching an instance keeps the layout. -/
theorem layout_detach (r : Registry) (w : World) (i : InstanceId) : Layout r (r.detach w i) := by
  rw [detach_eq]
  cases h : r.registrationOf? w i with
  | none => exact .refl r
  | some e => exact (Layout.refl r).updateRegistered (registrationOf?_eq_some.1 h).2 _

/-- A class is registered into the scope at a place. -/
def Hosts (r : Registry) (c : ClassId) (k : Nat) : Prop :=
  ∃ reg, r.registration? c = some reg ∧ k ∈ reg.scopes.map (·.index)

/-- The same classes are registered into the scope at a place. -/
theorem Layout.hosts {r r' : Registry} (h : Layout r r') {c : ClassId} {k : Nat} :
    r'.Hosts c k ↔ r.Hosts c k := by
  have hscopes := h.scopes c
  constructor
  · rintro ⟨reg', hc, hk⟩
    obtain ⟨reg, hreg, hs⟩ := h.exists_registration hc
    exact ⟨reg, hreg, hs ▸ hk⟩
  · rintro ⟨reg, hc, hk⟩
    rw [hc] at hscopes
    obtain ⟨reg', hreg', hs⟩ := Option.map_eq_some_iff.1 hscopes
    exact ⟨reg', hreg', hs.symm ▸ hk⟩

/-- Every registered class is registered somewhere, and only into scopes that the registry has. -/
structure Sound (r : Registry) : Prop where
  /-- A registered class is registered into some scope. -/
  nonempty : ∀ c reg, r.registration? c = some reg → reg.scopes ≠ []
  /-- The handles are the registry's own, of scopes it has. -/
  issued : ∀ c reg, r.registration? c = some reg → ∀ h ∈ reg.scopes,
    h.registry = r.id ∧ h.index < r.scopes.length

/-- A new registry is sound. -/
theorem sound_empty (id : Nat) (hiddenMark : String) : Sound (empty id hiddenMark) where
  nonempty c reg h := by simp [registration?, empty] at h
  issued c reg h := by simp [registration?, empty] at h

/-- Soundness depends on the layout alone. -/
theorem Sound.of_layout {r r' : Registry} (hr : Sound r) (h : Layout r r') : Sound r' := by
  constructor
  · intro c reg' hc
    obtain ⟨reg, hreg, hs⟩ := h.exists_registration hc
    exact hs ▸ hr.nonempty c reg hreg
  · intro c reg' hc
    obtain ⟨reg, hreg, hs⟩ := h.exists_registration hc
    rw [h.id, h.length, ← hs]
    exact hr.issued c reg hreg

/-- A new scope keeps a registry sound. -/
theorem Sound.createScope {r : Registry} (hr : Sound r) (name : String) :
    Sound (r.createScope name).1 where
  nonempty := hr.nonempty
  issued c reg hc h hh := by
    have hlt := (hr.issued c reg hc h hh).2
    refine ⟨(hr.issued c reg hc h hh).1, ?_⟩
    simp only [Registry.createScope, List.length_append, List.length_singleton]
    omega

section Register

variable {r r' : Registry} {w : World} {c : ClassId} {h : ScopeHandle}

/-- A class is registered only into a scope that the registry has. -/
theorem slot_of_register (e : r.register w c h = .ok r') :
    h.registry = r.id ∧ h.index < r.scopes.length := by
  unfold register at e
  cases hs : r.slot h with
  | error err => simp [hs, Except.map] at e
  | ok index =>
    obtain ⟨hid, rfl, hlt⟩ := slot_eq_ok hs
    exact ⟨hid, hlt⟩

/-- What registering a class makes of a registry. -/
theorem register_eq_ok (e : r.register w c h = .ok r') : r' =
    let reg := (r.registration? c).getD ⟨∅, []⟩
    let done := updateScope (Scope.publishAll w c (r.publicNames w c)) (reg.exposed, r.scopes) h
    { r with
      scopes := done.2
      registrations := r.registrations.insert c
        { exposed := done.1
          scopes := if h ∈ reg.scopes then reg.scopes else reg.scopes ++ [h] } } := by
  unfold register at e
  cases hs : r.slot h with
  | error err => simp [hs, Except.map] at e
  | ok index =>
    rw [hs] at e
    exact (Except.ok.inj e).symm

/-- Registering a class publishes its public names in one scope and leaves the others. -/
theorem getElem?_scopes_register (e : r.register w c h = .ok r') (k : Nat) :
    r'.scopes[k]? = if k = h.index then
        r.scopes[k]?.map fun s => (r.publicNames w c).foldl (Scope.place w c) s
      else r.scopes[k]? := by
  have hlt := (slot_of_register e).2
  rw [register_eq_ok e]
  simp only [updateScope, List.getElem?_eq_getElem hlt, Scope.publishAll_eq]
  by_cases hk : k = h.index
  · subst hk
    rw [List.getElem?_set_self hlt, List.getElem?_eq_getElem hlt]
    simp
  · rw [List.getElem?_set_ne (Ne.symm hk), if_neg hk]

/-- Registering a class changes no other registration. -/
theorem registration?_register (e : r.register w c h = .ok r') (d : ClassId) :
    r'.registration? d = if d = c then
        let reg := (r.registration? c).getD ⟨∅, []⟩
        some
          { exposed := (r.publicNames w c).foldl (w.hierarchy.exposing c) reg.exposed
            scopes := if h ∈ reg.scopes then reg.scopes else reg.scopes ++ [h] }
      else r.registration? d := by
  have hlt := (slot_of_register e).2
  rw [register_eq_ok e]
  simp only [registration?, updateScope, List.getElem?_eq_getElem hlt, Scope.publishAll_eq]
  rw [Std.ExtTreeMap.getElem?_insert]
  by_cases hd : d = c
  · simp [hd]
  · simp [hd, Ne.symm hd]

/-- Registering a class keeps the registry's identity, its public names and its number of
scopes. -/
theorem frame_register (e : r.register w c h = .ok r') :
    r'.id = r.id ∧ r'.isPublic = r.isPublic ∧ r'.scopes.length = r.scopes.length := by
  rw [register_eq_ok e]
  exact ⟨rfl, rfl, length_foldl_updateScope [h] _⟩

/-- The public names of a class are its public names that mean something. -/
theorem mem_publicNames {r : Registry} {w : World} {c : ClassId} {n : String} :
    n ∈ r.publicNames w c ↔ r.isPublic n = true ∧ (w.hierarchy.lookup? c n).isSome = true := by
  rw [publicNames, List.mem_filter, Std.ExtTreeSet.mem_toList, Hierarchy.mem_memberNames, and_comm]

/-- The scopes of a class's registration after it was registered once more. -/
theorem scopes_register (e : r.register w c h = .ok r') {reg : Registration}
    (hc : r'.registration? c = some reg) {k : ScopeHandle} :
    k ∈ reg.scopes ↔ k = h ∨ ∃ old, r.registration? c = some old ∧ k ∈ old.scopes := by
  rw [registration?_register e, if_pos rfl] at hc
  cases hc
  cases r.registration? c with
  | none => simp
  | some old =>
    by_cases hh : h ∈ old.scopes
    · simp only [Option.getD_some, hh, if_true, Option.some.injEq, exists_eq_left']
      exact ⟨.inr, fun hk => hk.elim (fun hk => hk ▸ hh) fun hk => hk⟩
    · simp [hh, or_comm]

/-- A class that was registered into a scope is registered there, and nothing else changes. -/
theorem hosts_register (e : r.register w c h = .ok r') {d : ClassId} {k : Nat} :
    r'.Hosts d k ↔ r.Hosts d k ∨ d = c ∧ k = h.index := by
  by_cases hd : d = c
  · subst hd
    obtain ⟨reg, hreg⟩ : ∃ reg, r'.registration? d = some reg :=
      ⟨_, by rw [registration?_register e, if_pos rfl]⟩
    have hmem : r'.Hosts d k ↔ k ∈ reg.scopes.map (·.index) :=
      ⟨fun ⟨reg', hreg', hk⟩ => Option.some.inj (hreg.symm.trans hreg') ▸ hk,
        fun hk => ⟨reg, hreg, hk⟩⟩
    rw [hmem, List.mem_map]
    constructor
    · rintro ⟨k, hk, rfl⟩
      rcases (scopes_register e hreg).1 hk with rfl | ⟨old, hold, hk⟩
      · exact .inr ⟨rfl, rfl⟩
      · exact .inl ⟨old, hold, List.mem_map_of_mem hk⟩
    · rintro (⟨old, hold, hk⟩ | ⟨-, rfl⟩)
      · obtain ⟨handle, hhandle, rfl⟩ := List.mem_map.1 hk
        exact ⟨handle, (scopes_register e hreg).2 (.inr ⟨old, hold, hhandle⟩), rfl⟩
      · exact ⟨h, (scopes_register e hreg).2 (.inl rfl), rfl⟩
  · have hsame : r'.registration? d = r.registration? d := by
      rw [registration?_register e, if_neg hd]
    simp [Hosts, hsame, hd]

/-- Registering a class keeps a registry sound. -/
theorem Sound.register (hr : Sound r) (e : r.register w c h = .ok r') : Sound r' := by
  obtain ⟨hid, -, hlength⟩ := frame_register e
  constructor
  · intro d reg hd
    by_cases hdc : d = c
    · subst hdc
      exact List.ne_nil_of_mem ((scopes_register e hd).2 (.inl rfl))
    · rw [registration?_register e, if_neg hdc] at hd
      exact hr.nonempty d reg hd
  · intro d reg hd k hk
    rw [hid, hlength]
    by_cases hdc : d = c
    · subst hdc
      rcases (scopes_register e hd).1 hk with rfl | ⟨old, hold, hk⟩
      · exact slot_of_register e
      · exact hr.issued d old hold k hk
    · rw [registration?_register e, if_neg hdc] at hd
      exact hr.issued d reg hd k hk

end Register

section Instances

variable {r : Registry} {w : World} {i : InstanceId} {c : ClassId} {reg : Registration}

/-- Attaching an instance makes it active and publishes its class's public names in every scope of
the class's registration, and leaves the other scopes. -/
theorem getElem?_scopes_attach (h : r.registrationOf? w i = some (c, reg)) (k : Nat) :
    (r.attach w i).scopes[k]? = if k ∈ reg.scopes.map (·.index) then
        r.scopes[k]?.map fun s => (r.publicNames w c).foldl (Scope.place w c) (s.activate (some i))
      else r.scopes[k]? := by
  rw [attach_eq, h]
  refine getElem?_scopes_updateRegistered (fun _ => True) ?_ ?_ r c trivial k
  · intro exposed s _
    exact ⟨trivial, by rw [Scope.publishAll_eq]⟩
  · intro s
    have hactive : ((r.publicNames w c).foldl (Scope.place w c) (s.activate (some i))).activate
        (some i) = (r.publicNames w c).foldl (Scope.place w c) (s.activate (some i)) :=
      Scope.activate_eq_self (Scope.active_foldl_place w c _ _)
    rw [hactive, Scope.foldl_place_foldl_place]

/-- Attaching an instance counts the public names of its class as exposed or not by what they
mean, and changes no other registration. -/
theorem registration?_attach (hr : Sound r) (h : r.registrationOf? w i = some (c, reg))
    (d : ClassId) : (r.attach w i).registration? d = if d = c then
        some { reg with
          exposed := (r.publicNames w c).foldl (w.hierarchy.exposing c) reg.exposed }
      else r.registration? d := by
  have hreg := (registrationOf?_eq_some.1 h).2
  rw [attach_eq, h]
  simp only [registration?_updateRegistered]
  rw [exposed_foldl_updateScope _ (fun exposed s => by rw [Scope.publishAll_eq])
    (w.hierarchy.foldl_exposing_foldl_exposing c _) (hr.nonempty c reg hreg)
    fun k hk => (hr.issued c reg hreg k hk).2]

/-- Detaching an instance empties the active slot and unbinds the exposed names in every scope of
the class's registration, and leaves the other scopes. -/
theorem getElem?_scopes_detach (h : r.registrationOf? w i = some (c, reg)) (k : Nat) :
    (r.detach w i).scopes[k]? = if k ∈ reg.scopes.map (·.index) then
        r.scopes[k]?.map fun s => reg.exposed.toList.foldl Scope.unbind (s.activate none)
      else r.scopes[k]? := by
  rw [detach_eq, h]
  refine getElem?_scopes_updateRegistered (fun exposed => exposed = reg.exposed) ?_ ?_
    r c rfl k
  · rintro exposed s rfl
    exact ⟨rfl, rfl⟩
  · intro s
    have hactive : (reg.exposed.toList.foldl Scope.unbind (s.activate none)).activate none =
        reg.exposed.toList.foldl Scope.unbind (s.activate none) :=
      Scope.activate_eq_self (Scope.active_foldl_unbind _ _)
    rw [hactive, Scope.foldl_unbind_foldl_unbind]

/-- Detaching an instance changes no registration. -/
theorem registration?_detach (hr : Sound r) (h : r.registrationOf? w i = some (c, reg))
    (d : ClassId) : (r.detach w i).registration? d = r.registration? d := by
  have hreg := (registrationOf?_eq_some.1 h).2
  rw [detach_eq, h]
  simp only [registration?_updateRegistered]
  rw [exposed_foldl_updateScope (fun exposed => exposed) (fun _ _ => rfl) (fun _ => rfl)
    (hr.nonempty c reg hreg) fun k hk => (hr.issued c reg hreg k hk).2]
  split
  · rename_i hd
    rw [hd, hreg]
  · rfl

end Instances

end Registry

end Delegation
