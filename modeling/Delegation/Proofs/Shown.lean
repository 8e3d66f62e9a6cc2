import Delegation.Proofs.Scope
import Delegation.Proofs.World
/-!
# What a scope shows of a class

A scope shows a class if under every public name stands what the name means
for the class now: the current method's delegate for a method, the active
instance's value for an attribute, and nothing else. Publishing brings a scope
in step again: what a published name shows does not depend on what stood there
before, as long as nothing was bound without an active instance. The exposed
names go the same way.
-/

namespace Delegation

namespace World

variable {w : World} {c : ClassId} {n : String} {active : Option InstanceId}

/-- An instance of a class has a value for every attribute of the class. -/
theorem exists_attribute {i : InstanceId} {v : Value} (hi : w.classOf? i = some c)
    (hn : w.hierarchy.lookup? c n = some (.attribute v)) : ∃ x, w.attribute? i n = some x := by
  obtain ⟨inst, hinst, rfl⟩ := Option.map_eq_some_iff.1 hi
  have heq := attribute?_eq hinst n
  rw [hn] at heq
  cases hown : inst.attributes[n]? with
  | none => exact ⟨v, by rw [heq, hown]; rfl⟩
  | some x => exact ⟨x, by rw [heq, hown]; rfl⟩

/-- An active instance of the class shows its own value. -/
theorem shown?_some {i : InstanceId} (hi : w.classOf? i = some c) (n : String) :
    w.shown? c (some i) n = w.attribute? i n := by
  simp [shown?, hi]

/-- No value is bound by publishing without an active instance. -/
theorem published_none_snd (w : World) (c : ClassId) (n : String) :
    (w.published c none n (none, none)).2 = none := by
  rcases w.hierarchy.lookup?_cases c n with h | ⟨m, h⟩ | ⟨v, h⟩
  · rw [published_of_none h]
  · rw [published_of_method h]
  · rw [published_of_attribute h]
    rfl

/-- What a published name shows does not depend on what stood there, if nothing stands under names
without a meaning and nothing was bound without an active instance. -/
theorem published_fresh (hactive : ∀ i, active = some i → w.classOf? i = some c)
    {old : Option Delegate × Option Value}
    (hnone : w.hierarchy.lookup? c n = none → old = (none, none))
    (hbound : active = none → old.2 = none) :
    w.published c active n old = w.published c active n (none, none) := by
  rcases w.hierarchy.lookup?_cases c n with h | ⟨m, h⟩ | ⟨v, h⟩
  · rw [hnone h]
  · rw [published_of_method h, published_of_method h]
  · rw [published_of_attribute h, published_of_attribute h]
    cases active with
    | none => rw [hbound rfl]
    | some i =>
      have hi := hactive i rfl
      obtain ⟨x, hx⟩ := exists_attribute hi h
      rw [shown?_some hi, hx]
      rfl

/-- A later world in which a name means the same shows the same under it. -/
theorem Extends.published {w' : World} (h : w.Extends w') (hc : w.hierarchy.Knows c)
    (hn : w'.hierarchy.lookup? c n = w.hierarchy.lookup? c n)
    (hactive : ∀ i, active = some i → w.classOf? i = some c)
    (old : Option Delegate × Option Value) :
    w'.published c active n old = w.published c active n old := by
  have hshown : w'.shown? c active n = w.shown? c active n := by
    cases active with
    | none => rfl
    | some i =>
      have hi := hactive i rfl
      rw [shown?_some hi, shown?_some (h.classOf? hi), h.attribute? hi hn]
  simp only [World.published, hn, hshown, h.name c hc]

end World

/-- A scope shows what the public names of a class mean. -/
structure Scope.Shows (w : World) (isPublic : String → Bool) (c : ClassId) (s : Scope) : Prop where
  /-- An active instance is one of the class. -/
  active : ∀ i, s.active = some i → w.classOf? i = some c
  /-- Under a public name stands what it means, and nothing under any other. -/
  entry : ∀ n, s.entry n =
    if isPublic n = true then w.published c s.active n (none, none) else (none, none)

/-- A scope without an active instance has nothing in it. -/
structure Scope.Blank (s : Scope) : Prop where
  /-- No instance is active. -/
  active : s.active = none
  /-- Nothing stands under any name. -/
  entry : ∀ n, s.entry n = (none, none)

/-- The names are the public ones that mean something for a class. -/
def Hierarchy.Lists (h : Hierarchy) (isPublic : String → Bool) (c : ClassId)
    (names : List String) : Prop :=
  ∀ n, n ∈ names ↔ isPublic n = true ∧ (h.lookup? c n).isSome = true

/-- A public name that is not listed means nothing. -/
theorem Hierarchy.Lists.lookup?_eq_none {h : Hierarchy} {isPublic : String → Bool} {c : ClassId}
    {names : List String} (hnames : h.Lists isPublic c names) {n : String} (hn : n ∉ names)
    (hpublic : isPublic n = true) : h.lookup? c n = none :=
  Option.not_isSome_iff_eq_none.1 fun hsome => hn ((hnames n).2 ⟨hpublic, hsome⟩)

/-- A public name that means something is listed. -/
theorem Hierarchy.Lists.mem {h : Hierarchy} {isPublic : String → Bool} {c : ClassId}
    {names : List String} (hnames : h.Lists isPublic c names) {n : String}
    (hpublic : isPublic n = true) {m : Member} (hn : h.lookup? c n = some m) : n ∈ names :=
  (hnames n).2 ⟨hpublic, by rw [hn]; rfl⟩

/-- A name that is hidden or means nothing is not listed. -/
theorem Hierarchy.Lists.not_mem {h : Hierarchy} {isPublic : String → Bool} {c : ClassId}
    {names : List String} (hnames : h.Lists isPublic c names) {n : String}
    (hn : isPublic n = true → h.lookup? c n = none) : n ∉ names := by
  intro hmem
  obtain ⟨hpublic, hmeans⟩ := (hnames n).1 hmem
  rw [hn hpublic] at hmeans
  cases hmeans

/-- The exposed names of a registration are the public attributes of its class. -/
def Registration.Exact (h : Hierarchy) (isPublic : String → Bool) (c : ClassId)
    (exposed : NameSet) : Prop :=
  ∀ n, n ∈ exposed ↔ isPublic n = true ∧ ∃ v, h.lookup? c n = some (.attribute v)

namespace Scope

variable {w : World} {isPublic : String → Bool} {c : ClassId} {s : Scope}

/-- A new scope is blank. -/
theorem blank_empty (id : ScopeHandle) (name : String) : (empty id name).Blank :=
  ⟨rfl, entry_empty id name⟩

/-- Publishing the public names of a class brings a scope in step that shows nothing else and has
nothing bound without an active instance. -/
theorem shows_foldl_place {names : List String} (hnames : w.hierarchy.Lists isPublic c names)
    (hactive : ∀ i, s.active = some i → w.classOf? i = some c)
    (hother : ∀ n, n ∉ names → s.entry n = (none, none))
    (hbound : ∀ n, s.active = none → (s.entry n).2 = none) :
    Shows w isPublic c (names.foldl (place w c) s) where
  active i hi := hactive i (by rwa [active_foldl_place] at hi)
  entry n := by
    rw [entry_foldl_place, active_foldl_place]
    by_cases hn : n ∈ names
    · obtain ⟨hpublic, hmeans⟩ := (hnames n).1 hn
      rw [if_pos hn, if_pos hpublic]
      refine World.published_fresh hactive (fun hnone => ?_) (hbound n)
      rw [hnone] at hmeans
      cases hmeans
    · rw [if_neg hn, hother n hn]
      by_cases hpublic : isPublic n = true
      · rw [if_pos hpublic, World.published_of_none (hnames.lookup?_eq_none hn hpublic)]
      · rw [if_neg hpublic]

/-- Nothing stands under a name that is hidden or means nothing. -/
theorem Shows.entry_of_meaningless (h : Shows w isPublic c s) {n : String}
    (hn : isPublic n = true → w.hierarchy.lookup? c n = none) : s.entry n = (none, none) := by
  rw [h.entry]
  split
  · rename_i hpublic
    rw [World.published_of_none (hn hpublic)]
  · rfl

/-- Nothing is bound without an active instance. -/
theorem Shows.unbound (h : Shows w isPublic c s) (hactive : s.active = none) (n : String) :
    (s.entry n).2 = none := by
  rw [h.entry, hactive]
  split
  · exact World.published_none_snd w c n
  · rfl

/-- A scope in step stays in step when the public names are published again. -/
theorem Shows.publish (h : Shows w isPublic c s) {names : List String}
    (hnames : w.hierarchy.Lists isPublic c names) :
    Shows w isPublic c (names.foldl (place w c) s) := by
  refine shows_foldl_place hnames h.active ?_ ?_
  · intro n hn
    exact h.entry_of_meaningless (hnames.lookup?_eq_none hn)
  · intro n hactive
    exact h.unbound hactive n

/-- A blank scope is in step once the public names are published. -/
theorem Blank.publish (h : s.Blank) {names : List String}
    (hnames : w.hierarchy.Lists isPublic c names) :
    Shows w isPublic c (names.foldl (place w c) s) := by
  refine shows_foldl_place hnames ?_ ?_ ?_
  · intro i hi
    rw [h.active] at hi
    cases hi
  · intro n _
    exact h.entry n
  · intro n _
    rw [h.entry]

/-- A scope in step stays in step when another instance of the class becomes active and the public
names are published again. -/
theorem Shows.attach (h : Shows w isPublic c s) {names : List String}
    (hnames : w.hierarchy.Lists isPublic c names) {i : InstanceId} (hi : w.classOf? i = some c) :
    Shows w isPublic c (names.foldl (place w c) (s.activate (some i))) := by
  refine shows_foldl_place hnames ?_ ?_ ?_
  · intro j hj
    exact Option.some.inj hj ▸ hi
  · intro n hn
    exact h.entry_of_meaningless (hnames.lookup?_eq_none hn)
  · intro n hnone
    cases hnone

/-- A scope in step stays in step when no instance is active any more and the exposed names are
unbound. -/
theorem Shows.detach (h : Shows w isPublic c s) {exposed : NameSet}
    (hexposed : Registration.Exact w.hierarchy isPublic c exposed) :
    Shows w isPublic c (exposed.toList.foldl unbind (s.activate none)) where
  active i hi := by
    rw [active_foldl_unbind] at hi
    cases hi
  entry n := by
    have hentry : (s.activate none).entry n = s.entry n := rfl
    have hdelegate : (s.activate none).delegate? n = (s.entry n).1 := rfl
    have hactive : (s.activate none).active = none := rfl
    rw [entry_foldl_unbind, active_foldl_unbind, hactive, hentry, hdelegate, h.entry]
    by_cases hn : n ∈ exposed
    · obtain ⟨hpublic, v, hl⟩ := (hexposed n).1 hn
      rw [if_pos (Std.ExtTreeSet.mem_toList.2 hn), if_pos hpublic, if_pos hpublic,
        World.published_of_attribute hl, World.published_of_attribute hl]
      rfl
    · rw [if_neg fun hlist => hn (Std.ExtTreeSet.mem_toList.1 hlist)]
      by_cases hpublic : isPublic n = true
      · rw [if_pos hpublic, if_pos hpublic]
        rcases w.hierarchy.lookup?_cases c n with hl | ⟨m, hl⟩ | ⟨v, hl⟩
        · rw [World.published_of_none hl, World.published_of_none hl]
        · rw [World.published_of_method hl, World.published_of_method hl]
        · exact absurd ((hexposed n).2 ⟨hpublic, v, hl⟩) hn
      · rw [if_neg hpublic, if_neg hpublic]

/-- A scope in step stays in step while the public names mean the same. -/
theorem Shows.of_extends (h : Shows w isPublic c s) {w' : World} (hw : w.Extends w')
    (hc : w.hierarchy.Knows c) (hsame : ∀ n, isPublic n = true →
      w'.hierarchy.lookup? c n = w.hierarchy.lookup? c n) : Shows w' isPublic c s where
  active i hi := hw.classOf? (h.active i hi)
  entry n := by
    rw [h.entry]
    by_cases hpublic : isPublic n = true
    · rw [if_pos hpublic, if_pos hpublic, hw.published hc (hsame n hpublic) h.active]
    · rw [if_neg hpublic, if_neg hpublic]

end Scope

/-- A later world in which at most one name means anything else, for the classes at or below a
class, and no name lost its meaning. -/
structure World.Gains (w w' : World) (c : ClassId) (name : String) : Prop where
  /-- Classes and instances stay. -/
  later : w.Extends w'
  /-- Other names mean the same, and so does the name itself for other classes. -/
  same : ∀ d, w.hierarchy.Knows d → ∀ n,
    n ≠ name ∨ w.hierarchy.isSubclass d c = false →
      w'.hierarchy.lookup? d n = w.hierarchy.lookup? d n
  /-- What meant something means something. -/
  kept : ∀ d n, (w.hierarchy.lookup? d n).isSome = true →
    (w'.hierarchy.lookup? d n).isSome = true

/-- A world gains nothing over itself. -/
theorem World.Gains.refl (w : World) (c : ClassId) (name : String) : w.Gains w c name :=
  ⟨.refl w, fun _ _ _ _ => rfl, fun _ _ h => h⟩

/-- What a world gains when a member is set. -/
theorem World.gains_setMember (w : World) (c : ClassId) (name : String) (m : Member) :
    w.Gains (w.setMember c name m) c name where
  later := w.extends_setMember c name m
  same d _ n h := by
    refine Hierarchy.lookup?_setMember m ?_
    rcases h with h | h
    · exact .inr h
    · refine .inl fun hc => ?_
      rw [Hierarchy.isSubclass, List.contains_iff_mem.2 hc] at h
      cases h
  kept _ _ := Hierarchy.isSome_lookup?_setMember

/-- The same classes are at or below the class. -/
theorem World.Gains.isSubclass {w w' : World} {c : ClassId} {name : String}
    (h : w.Gains w' c name) {d : ClassId} (hd : w.hierarchy.Knows d) :
    w'.hierarchy.isSubclass d c = w.hierarchy.isSubclass d c := by
  rw [Hierarchy.isSubclass, Hierarchy.isSubclass, h.later.chain d hd]

/-- A name without a meaning had none before. -/
theorem World.Gains.lookup?_eq_none {w w' : World} {c : ClassId} {name : String}
    (h : w.Gains w' c name) {d : ClassId} {n : String}
    (hn : w'.hierarchy.lookup? d n = none) : w.hierarchy.lookup? d n = none := by
  refine Option.not_isSome_iff_eq_none.1 fun hsome => ?_
  have hkept := h.kept d n hsome
  rw [hn] at hkept
  cases hkept

/-- A scope in step with the world before a member was gained is in step again once the name is
published. -/
theorem Scope.Shows.place {w w' : World} {isPublic : String → Bool} {c d : ClassId} {s : Scope}
    {name : String} (h : Shows w isPublic d s) (hw : w.Gains w' c name)
    (hd : w.hierarchy.Knows d) (hpublic : isPublic name = true) :
    Shows w' isPublic d (place w' d s name) where
  active i hi := hw.later.classOf? (h.active i (by rwa [active_place] at hi))
  entry n := by
    rw [entry_place, active_place]
    by_cases hn : n = name
    · subst hn
      rw [if_pos rfl, if_pos hpublic]
      refine World.published_fresh (fun i hi => hw.later.classOf? (h.active i hi)) ?_ ?_
      · exact fun hnone => h.entry_of_meaningless fun _ => hw.lookup?_eq_none hnone
      · exact fun hactive => h.unbound hactive n
    · rw [if_neg hn, h.entry,
        hw.later.published hd (hw.same d hd n (.inl hn)) h.active]

/-- What is done several times for one class, where a second time does nothing more, is done
once. -/
theorem Scope.foldl_of_sole {f : Scope → ClassId → Scope} (hf : ∀ s c, f (f s c) c = f s c)
    {c : ClassId} {ds : List ClassId} (hds : ∀ d ∈ ds, d = c) (hne : ds ≠ []) (s : Scope) :
    ds.foldl f s = f s c := by
  induction ds generalizing s with
  | nil => exact absurd rfl hne
  | cons d ds ih =>
    obtain rfl : d = c := hds d List.mem_cons_self
    rw [List.foldl_cons]
    by_cases hlast : ds = []
    · rw [hlast, List.foldl_nil]
    · rw [ih (fun d' hd' => hds d' (List.mem_cons_of_mem _ hd')) hlast, hf]

/-- Publishing a name several times for one class is publishing it once. -/
theorem Scope.foldl_place_of_sole (w : World) (name : String) {c : ClassId} {ds : List ClassId}
    (hds : ∀ d ∈ ds, d = c) (hne : ds ≠ []) (s : Scope) :
    ds.foldl (fun s d => place w d s name) s = place w c s name :=
  foldl_of_sole (fun s d => place_place w d s name) hds hne s

/-- A scope in step with the world before a member was gained is in step again once the name is
published for its class, as often as it may be, if the class is one that the member is seen by. -/
theorem Scope.Shows.foldl_place {w w' : World} {isPublic : String → Bool} {c d : ClassId}
    {s : Scope} {name : String} (h : Shows w isPublic d s) (hw : w.Gains w' c name)
    (hd : w.hierarchy.Knows d) (hpublic : isPublic name = true) {ds : List ClassId}
    (hds : ∀ d' ∈ ds, d' = d) (hmem : w'.hierarchy.isSubclass d c = true → d ∈ ds) :
    Shows w' isPublic d (ds.foldl (fun s d => Scope.place w' d s name) s) := by
  by_cases hnil : ds = []
  · have hsub : w.hierarchy.isSubclass d c = false := by
      rw [← hw.isSubclass hd, ← Bool.not_eq_true]
      intro hyes
      rw [hnil] at hmem
      cases hmem hyes
    rw [hnil]
    exact h.of_extends hw.later hd fun n _ => hw.same d hd n (.inr hsub)
  · rw [foldl_place_of_sole w' name hds hnil]
    exact h.place hw hd hpublic

namespace Registration.Exact

variable {h : Hierarchy} {isPublic : String → Bool} {c : ClassId} {exposed : NameSet}

/-- Counting all listed names as exposed or not makes the exposed names exact. -/
theorem foldl_exposing {names : List String} (hnames : h.Lists isPublic c names)
    (hold : ∀ n ∈ exposed, n ∈ names) :
    Exact h isPublic c (names.foldl (h.exposing c) exposed) := by
  intro n
  rw [Hierarchy.mem_foldl_exposing]
  by_cases hn : n ∈ names
  · obtain ⟨hpublic, hmeans⟩ := (hnames n).1 hn
    rw [if_pos ⟨hn, hmeans⟩]
    exact ⟨fun hv => ⟨hpublic, hv⟩, And.right⟩
  · rw [if_neg fun hmem => hn hmem.1]
    constructor
    · exact fun hmem => absurd (hold n hmem) hn
    · rintro ⟨hpublic, v, hv⟩
      rw [hnames.lookup?_eq_none hn hpublic] at hv
      cases hv

/-- Exact names are listed ones. -/
theorem mem_names (hexact : Exact h isPublic c exposed) {names : List String}
    (hnames : h.Lists isPublic c names) : ∀ n ∈ exposed, n ∈ names := by
  intro n hn
  obtain ⟨hpublic, v, hv⟩ := (hexact n).1 hn
  exact hnames.mem hpublic hv

/-- Exact names stay exact while the public names mean the same. -/
theorem of_same (hexact : Exact h isPublic c exposed) {h' : Hierarchy}
    (hsame : ∀ n, isPublic n = true → h'.lookup? c n = h.lookup? c n) :
    Exact h' isPublic c exposed := by
  intro n
  rw [hexact n]
  constructor
  · rintro ⟨hpublic, hv⟩
    exact ⟨hpublic, by rwa [hsame n hpublic]⟩
  · rintro ⟨hpublic, hv⟩
    exact ⟨hpublic, by rwa [hsame n hpublic] at hv⟩

/-- Exact names are exact again once a gained name was counted as exposed or not. -/
theorem exposing {w w' : World} {d : ClassId} {name : String}
    (hexact : Exact w.hierarchy isPublic d exposed) (hw : w.Gains w' c name)
    (hd : w.hierarchy.Knows d) (hpublic : isPublic name = true) :
    Exact w'.hierarchy isPublic d (w'.hierarchy.exposing d exposed name) := by
  intro n
  rw [Hierarchy.mem_exposing]
  by_cases hn : n = name
  · subst hn
    by_cases hmeans : (w'.hierarchy.lookup? d n).isSome = true
    · rw [if_pos ⟨rfl, hmeans⟩]
      exact ⟨fun hv => ⟨hpublic, hv⟩, And.right⟩
    · have hnone := Option.not_isSome_iff_eq_none.1 hmeans
      rw [if_neg fun h => hmeans h.2, hexact n, hnone, hw.lookup?_eq_none hnone]
  · rw [if_neg fun h => hn h.1, hexact n, hw.same d hd n (.inl hn)]

/-- The exposed names of a registration are exact again once it was told of a gained name. -/
theorem notified {w w' : World} {d : ClassId} {reg : Registration} {name : String}
    (hexact : Exact w.hierarchy isPublic d reg.exposed) (hw : w.Gains w' c name)
    (hd : w.hierarchy.Knows d) (hpublic : isPublic name = true) :
    Exact w'.hierarchy isPublic d
      (if w'.hierarchy.isSubclass d c = true then
        { reg with exposed := w'.hierarchy.exposing d reg.exposed name }
      else reg).exposed := by
  by_cases hsub : w'.hierarchy.isSubclass d c = true
  · rw [if_pos hsub]
    exact hexact.exposing hw hd hpublic
  · rw [if_neg hsub]
    rw [hw.isSubclass hd, Bool.not_eq_true] at hsub
    exact hexact.of_same fun n _ => hw.same d hd n (.inr hsub)

end Registration.Exact

end Delegation
