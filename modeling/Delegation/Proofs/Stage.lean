import Delegation.Proofs.Notice
import Delegation.Proofs.World
/-!
# Runs of a registry

A stage is a registry together with the world its calls are made in. It goes
on by what the registry is asked to do, by calls through it, and by whatever
other code does to the world. Which classes other code may set members of is a
licence that a run is given. What every operation on a scope keeps holds of
all scopes at every stage (`Stage.Reachable.scopes`), and the registry stays
sound and the world closed.
-/

namespace Delegation

/-- What a new scope has and every operation on a scope keeps. -/
structure Scope.Kept (P : Scope → Prop) : Prop where
  /-- A new scope has it. -/
  empty : ∀ id name, P (.empty id name)
  /-- Publishing a name keeps it. -/
  place : ∀ w c s n, P s → P (place w c s n)
  /-- Another active instance keeps it. -/
  activate : ∀ s i, P s → P (s.activate i)
  /-- Unbinding a value keeps it. -/
  unbind : ∀ s n, P s → P (s.unbind n)

section Kept

variable {P : Scope → Prop} {r : Registry} {w : World}

/-- An operation done several times keeps it. -/
theorem Scope.Kept.foldl {α : Type} {f : Scope → α → Scope} (hf : ∀ s x, P s → P (f s x))
    (xs : List α) {s : Scope} (hs : P s) : P (xs.foldl f s) := by
  induction xs generalizing s with
  | nil => exact hs
  | cons x xs ih => exact ih (hf s x hs)

/-- An operation done in some scopes keeps it in all scopes. -/
theorem Scope.Kept.of_ite {b : Prop} [Decidable b] {f : Scope → Scope}
    (hf : ∀ s, P s → P (f s)) {old : Option Scope} (h : ∀ s ∈ old, P s) :
    ∀ s ∈ if b then old.map f else old, P s := by
  intro s hs
  split at hs
  · obtain ⟨s₀, hs₀, rfl⟩ := Option.map_eq_some_iff.1 hs
    exact hf s₀ (h s₀ hs₀)
  · exact h s hs

variable (hP : Scope.Kept P) (h : ∀ k : Nat, ∀ s ∈ r.scopes[k]?, P s)
include hP h

/-- All scopes have it after one more was created. -/
theorem Scope.Kept.createScope (name : String) (k : Nat) :
    ∀ s ∈ (r.createScope name).1.scopes[k]?, P s := by
  intro s hs
  rcases Registry.scopes_createScope hs with hold | ⟨-, rfl⟩
  · exact h k s hold
  · exact hP.empty _ name

/-- All scopes have it after a class was registered. -/
theorem Scope.Kept.register {r' : Registry} {c : ClassId} {handle : ScopeHandle}
    (e : r.register w c handle = .ok r') (k : Nat) : ∀ s ∈ r'.scopes[k]?, P s := by
  rw [Registry.getElem?_scopes_register e]
  exact of_ite (fun s => Kept.foldl (hP.place w c) _) (h k)

/-- All scopes have it after a member was published again. -/
theorem Scope.Kept.notifyIn (order : List (ClassId × Registration)) (w : World) (c : ClassId)
    (name : String) (k : Nat) : ∀ s ∈ (r.notifyIn order w c name).scopes[k]?, P s := by
  by_cases hpublic : r.isPublic name = true
  · rw [Registry.getElem?_scopes_notifyIn hpublic]
    intro s hs
    obtain ⟨s₀, hs₀, rfl⟩ := Option.map_eq_some_iff.1 hs
    exact Kept.foldl (fun s d => hP.place w d s name) _ (h k s₀ hs₀)
  · rw [Registry.notifyIn_of_hidden hpublic]
    exact h k

/-- All scopes have it after an instance was attached. -/
theorem Scope.Kept.attach (w : World) (i : InstanceId) (k : Nat) :
    ∀ s ∈ (r.attach w i).scopes[k]?, P s := by
  cases hreg : r.registrationOf? w i with
  | none =>
    rw [Registry.attach_eq, hreg]
    exact h k
  | some e =>
    rw [Registry.getElem?_scopes_attach hreg]
    exact of_ite (fun s hs => Kept.foldl (hP.place w e.1) _ (hP.activate s _ hs)) (h k)

/-- All scopes have it after an instance was detached. -/
theorem Scope.Kept.detach (w : World) (i : InstanceId) (k : Nat) :
    ∀ s ∈ (r.detach w i).scopes[k]?, P s := by
  cases hreg : r.registrationOf? w i with
  | none =>
    rw [Registry.detach_eq, hreg]
    exact h k
  | some e =>
    rw [Registry.getElem?_scopes_detach hreg]
    exact of_ite (fun s hs => Kept.foldl hP.unbind _ (hP.activate s _ hs)) (h k)

end Kept

/-- A registry in the world its calls are made in. -/
structure Stage where
  /-- The world. -/
  world : World
  /-- The registry. -/
  registry : Registry

/-- Which classes code outside a registry may set members of. -/
abbrev Licence := Registry → World → ClassId → Prop

namespace Licence

/-- Members of any class may be set. -/
def free : Licence := fun _ _ _ => True

/-- Members of registered classes and of their ancestors are left to the registry. -/
def unwatched : Licence := fun r w a => ∀ c, r.registration? c ≠ none → a ∉ w.hierarchy.chain c

end Licence

namespace Stage

/-- One step of a run. -/
inductive Step (licence : Licence) : Stage → Stage → Prop where
  /-- Code outside the registry does something to the world. -/
  | change {w w' : World} {r : Registry} (h : World.Change (licence r w) w w') :
      Step licence ⟨w, r⟩ ⟨w', r⟩
  /-- A call through the registry, whose bodies do to the world what other code may do. -/
  | call {w : World} {r : Registry} (run : Runner) (h : ScopeHandle) (name : String)
      (a : Arguments) (body : World.Evolves (licence r) w (r.callVia run w h name a).1) :
      Step licence ⟨w, r⟩ ⟨(r.callVia run w h name a).1, r⟩
  /-- A scope is created. -/
  | createScope {w : World} {r : Registry} (name : String) :
      Step licence ⟨w, r⟩ ⟨w, (r.createScope name).1⟩
  /-- A declared class is registered into a scope. -/
  | register {w : World} {r r' : Registry} {c : ClassId} {h : ScopeHandle}
      (known : w.hierarchy.Knows c) (accepted : r.register w c h = .ok r') :
      Step licence ⟨w, r⟩ ⟨w, r'⟩
  /-- The registry is told that a class gained a member, and visits its registrations in some
  order. -/
  | notify {w : World} {r : Registry} {order : List (ClassId × Registration)}
      (each : order.Perm r.registrations.toList) (c : ClassId) (name : String) :
      Step licence ⟨w, r⟩ ⟨w, r.notifyIn order w c name⟩
  /-- A member is set through the registry, which visits its registrations in some order. -/
  | addMember {w : World} {r : Registry} {order : List (ClassId × Registration)}
      (each : order.Perm r.registrations.toList) (c : ClassId) (name : String) (m : Member) :
      Step licence ⟨w, r⟩
        ⟨w.setMember c name m, r.notifyIn order (w.setMember c name m) c name⟩
  /-- An instance is attached. -/
  | attach {w : World} {r : Registry} (i : InstanceId) : Step licence ⟨w, r⟩ ⟨w, r.attach w i⟩
  /-- An instance is detached. -/
  | detach {w : World} {r : Registry} (i : InstanceId) : Step licence ⟨w, r⟩ ⟨w, r.detach w i⟩

/-- The stages that runs lead to, starting from nothing at all and a new registry. -/
inductive Reachable (licence : Licence) : Stage → Prop where
  /-- The start of a run. -/
  | start (id : Nat) (hiddenMark : String) :
      Reachable licence ⟨.empty, .empty id hiddenMark⟩
  /-- One step further. -/
  | step {st st' : Stage} (before : Reachable licence st) (next : Step licence st st') :
      Reachable licence st'

/-- Where members of any class may be set, every call through the registry is a step. -/
theorem Step.of_call (w : World) (r : Registry) (h : ScopeHandle) (name : String)
    (a : Arguments) : Step .free ⟨w, r⟩ ⟨(r.call w h name a).1, r⟩ := by
  refine .call (World.run w.depth) h name a ?_
  unfold Registry.callVia
  split
  · exact .refl
  · split
    · exact .refl
    · rename_i s _
      unfold Scope.callVia
      split
      · exact .refl
      · rename_i d _
        unfold Delegate.callVia
        split
        · exact .refl
        · split
          · exact .refl
          · exact World.callVia_evolves (World.run_evolves w.depth) w _ _ _

variable {licence : Licence} {st : Stage}

/-- Telling the registry of a new member is a step. -/
theorem Step.of_notify (w : World) (r : Registry) (c : ClassId) (name : String) :
    Step licence ⟨w, r⟩ ⟨w, r.notify w c name⟩ := by
  rw [Registry.notify_eq]
  exact .notify (.refl _) c name

/-- Setting a member through the registry is a step. -/
theorem Step.of_addMember (w : World) (r : Registry) (c : ClassId) (name : String) (m : Member) :
    Step licence ⟨w, r⟩ ⟨(r.addMember w c name m).1, (r.addMember w c name m).2⟩ := by
  rw [Registry.addMember, Registry.notify_eq]
  exact .addMember (.refl _) c name m

/-- A run goes on by whatever other code does. -/
theorem Reachable.evolves {w w' : World} {r : Registry} (reach : Reachable licence ⟨w, r⟩)
    (h : World.Evolves (licence r) w w') : Reachable licence ⟨w', r⟩ := by
  induction h with
  | refl => exact reach
  | step before change ih => exact ih.step (.change change)

/-- The world stays closed. -/
theorem Reachable.closed (reach : Reachable licence st) : st.world.Closed := by
  induction reach with
  | start id hiddenMark => exact World.closed_empty
  | step before next ih =>
    cases next with
    | change h => exact h.closed ih
    | call run h name a body => exact body.closed ih
    | addMember each c name m => exact ih.setMember c name m
    | _ => exact ih

/-- The registry stays sound. -/
theorem Reachable.sound (reach : Reachable licence st) : st.registry.Sound := by
  induction reach with
  | start id hiddenMark => exact Registry.sound_empty id hiddenMark
  | step before next ih =>
    cases next with
    | change h => exact ih
    | call run h name a body => exact ih
    | createScope name => exact ih.createScope name
    | register known accepted => exact ih.register accepted
    | notify each c name => exact ih.of_layout (Registry.layout_notifyIn each _ c name)
    | addMember each c name m => exact ih.of_layout (Registry.layout_notifyIn each _ c name)
    | attach i => exact ih.of_layout (Registry.layout_attach _ _ i)
    | detach i => exact ih.of_layout (Registry.layout_detach _ _ i)

/-- What a new scope has and every operation on a scope keeps, all scopes have at every stage. -/
theorem Reachable.scopes (reach : Reachable licence st) {P : Scope → Prop} (hP : Scope.Kept P)
    (k : Nat) : ∀ s ∈ st.registry.scopes[k]?, P s := by
  induction reach generalizing k with
  | start id hiddenMark =>
    intro s hs
    simp [Registry.empty] at hs
  | step before next ih =>
    cases next with
    | change h => exact ih k
    | call run h name a body => exact ih k
    | createScope name => exact hP.createScope ih name k
    | register known accepted => exact hP.register ih accepted k
    | notify each c name => exact hP.notifyIn ih _ _ c name k
    | addMember each c name m => exact hP.notifyIn ih _ _ c name k
    | attach i => exact hP.attach ih _ i k
    | detach i => exact hP.detach ih _ i k

/-- A method with a required and an optional parameter, whose own name is not the one it is called
by. -/
def sampleMethod : Method where
  signature := ⟨"greet", [⟨"guest", none⟩, ⟨"times", some (.int 1)⟩], none, none, by decide⟩
  script := .describe

/-- The world of one class, with a method and a plain attribute, and one instance of it. -/
def sampleWorld : World where
  hierarchy := ⟨[⟨"Guide", [], [],
    .ofEntries [("level", .attribute (.int 3)), ("welcome", .method sampleMethod)]⟩]⟩
  instances := [⟨0, ∅, none⟩]
  journals := ∅

/-- Other code makes this world. -/
theorem sampleWorld_evolves (may : World → ClassId → Prop) :
    World.Evolves may .empty sampleWorld := by
  have hdeclare : World.empty.declareClass "Guide" []
      (.ofEntries [("level", .attribute (.int 3)), ("welcome", .method sampleMethod)]) =
      .ok { sampleWorld with instances := [] } := by
    simp [World.declareClass, Hierarchy.declare, Ancestry.ancestors?_nil, Except.map, World.empty,
      Hierarchy.empty, sampleWorld]
  have hclass : World.Evolves may .empty { sampleWorld with instances := [] } :=
    .step .refl (.declare (by simp) hdeclare)
  exact hclass.step (.create ⟨0, ∅, none⟩ Nat.zero_lt_one)

/-- A registry with one scope. -/
def sampleOpened : Registry := ((Registry.empty 7 Registry.usualMark).createScope "tools").1

/-- The handle of that scope. -/
def sampleHandle : ScopeHandle := ⟨7, 0⟩

/-- That registry with the class registered into its scope. -/
def sampleRegistered : Registry :=
  (sampleOpened.register sampleWorld 0 sampleHandle).toOption.getD sampleOpened

/-- A stage at which the instance is attached. -/
def sample : Stage := ⟨sampleWorld, sampleRegistered.attach sampleWorld 0⟩

/-- The scope at that stage. -/
def sampleScope : Scope where
  id := sampleHandle
  name := "tools"
  delegates := .ofEntries [("welcome", .ofMethod "Guide" "welcome" sampleMethod)]
  bindings := .ofEntries [("level", .int 3)]
  active := some 0

/-- The stage is one of a run, whatever other code may do. -/
theorem sample_reachable (licence : Licence) : Reachable licence sample := by
  have hknown : sampleWorld.hierarchy.Knows 0 := Nat.zero_lt_one
  have hregister : sampleOpened.register sampleWorld 0 sampleHandle = .ok sampleRegistered := rfl
  have hstart : Reachable licence ⟨.empty, .empty 7 Registry.usualMark⟩ := .start _ _
  have hworld : Reachable licence ⟨sampleWorld, .empty 7 Registry.usualMark⟩ :=
    hstart.evolves (sampleWorld_evolves _)
  have hscope : Reachable licence ⟨sampleWorld, sampleOpened⟩ :=
    hworld.step (.createScope "tools")
  have hregistered : Reachable licence ⟨sampleWorld, sampleRegistered⟩ :=
    hscope.step (.register hknown hregister)
  exact hregistered.step (.attach 0)

/-- The handle finds the scope. -/
theorem sample_scope : sample.registry.scope? sampleHandle = some sampleScope := by
  decide +kernel

end Stage

end Delegation
