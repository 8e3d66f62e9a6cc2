import Delegation.Proofs.Resolution
/-!
# Calls inside calls

What a body does is a course of actions: it ends, it does something to the
world, or it makes a call and goes on with what comes of it. Bodies are
arbitrary otherwise, may call each other without bound, and may differ by how
deeply they are nested. A call that goes by some bodies leaves a log of the
bodies that were entered for it, each with its level, how it ended and what
came out of the call that entered it.

The log is empty where the call was refused; else it starts with the body that
the call let run, and every other entry is of a deeper level. Whatever error a
body ends with, at any level, comes out of the call that entered it as the
failure of that body's method.
-/

namespace Delegation

/-- A call: of a member of an instance, or of a delegate by scope and name in a registry as it is
at that moment. -/
inductive Target where
  /-- A member of an instance. -/
  | member (i : InstanceId) (name : String) (a : Arguments)
  /-- A delegate in a scope of a registry. -/
  | delegate (r : Registry) (h : ScopeHandle) (name : String) (a : Arguments)

/-- What a call does and ends in, given how methods run. -/
def Target.callVia (run : Runner) (w : World) : Target → World × Except Failure Value
  | .member i name a =>
    let done := w.callVia run i name a
    (done.1, done.2.mapError .call)
  | .delegate r h name a => r.callVia run w h name a

/-- The body that a call lets run. -/
def Target.resolve (w : World) : Target → Except Failure Body
  | .member i name a => (w.resolve i name a).mapError .call
  | .delegate r h name a => r.resolve w h name a

/-- What comes out of a call whose body ended in some way. -/
def Body.outcome (body : Body) (ended : Except Cause Value) : Except Failure Value :=
  ended.mapError fun c => .call (.method body.method.signature.name c)

/-- What a body that passes a failure on ends with. -/
def Failure.cause : Failure → Cause
  | .call e => .call e
  | f => .failure f

/-- The failures of a call that keep every body from running. -/
inductive Failure.Refusal : Failure → Prop where
  /-- The registry has no such scope. -/
  | unknownScope (index : Nat) : Refusal (.registry (.unknownScope index))
  /-- The scope has no such delegate. -/
  | unknownName (scope name : String) : Refusal (.call (.unknownName scope name))
  /-- The arguments do not fit. -/
  | binding (e : BindError) : Refusal (.call (.binding e))
  /-- A required parameter is covered by nothing. -/
  | uncovered (e : CoverageError) : Refusal (.call (.uncovered e))
  /-- No instance is active. -/
  | notEstablished (className member : String) : Refusal (.call (.notEstablished className member))
  /-- The class has no such member. -/
  | noSuchMember (className member : String) : Refusal (.call (.noSuchMember className member))
  /-- The member is an attribute. -/
  | notCallable (className member : String) : Refusal (.call (.notCallable className member))

section Resolve

variable {w : World} {run : Runner} {t : Target}

/-- What comes out of a body's run is told by how the body ended. -/
theorem Body.mapError_run (run : Runner) (w : World) (body : Body) :
    (body.run run w).2.mapError .call =
      body.outcome (run body.method body.receiver body.binding w).2 := by
  simp only [Body.run, Body.outcome]
  cases (run body.method body.receiver body.binding w).2 <;> rfl

/-- A call lets its body run, or is refused and does nothing. -/
theorem Target.callVia_eq (run : Runner) (w : World) (t : Target) : t.callVia run w =
    match t.resolve w with
    | .error f => (w, .error f)
    | .ok body =>
      let done := run body.method body.receiver body.binding w
      (done.1, body.outcome done.2) := by
  cases t with
  | member i name a =>
    simp only [callVia, resolve, World.callVia_eq]
    cases w.resolve i name a with
    | error e => rfl
    | ok body => exact congrArg (Prod.mk _) (body.mapError_run run w)
  | delegate r h name a =>
    simp only [callVia, resolve, Registry.callVia_eq]
    cases r.resolve w h name a with
    | error f => rfl
    | ok body => exact congrArg (Prod.mk _) (body.mapError_run run w)

/-- A member that lets no body run is refused. -/
theorem World.refusal_of_resolve {i : InstanceId} {name : String} {a : Arguments} {e : CallError}
    (h : w.resolve i name a = .error e) : (Failure.call e).Refusal := by
  unfold resolve at h
  split at h
  · rename_i m _
    unfold Method.resolve at h
    split at h
    · cases h
      exact .binding _
    · cases h
  · cases h
    exact .notCallable _ _
  · cases h
    exact .noSuchMember _ _

/-- Arguments that a delegate does not hand on are refused. -/
theorem Delegate.refusal_of_prepare {d : Delegate} {a : Arguments} {e : CallError}
    (h : d.prepare a = .error e) : (Failure.call e).Refusal := by
  unfold prepare at h
  split at h
  · cases h
    exact .binding _
  · rename_i prepared _
    split at h
    · cases h
    · cases hadapt : d.renames.adapt d.signature prepared with
      | error f =>
        rw [hadapt] at h
        cases h
        exact .uncovered f
      | ok handed =>
        rw [hadapt] at h
        cases h

/-- A scope's call that lets no body run is refused. -/
theorem Scope.refusal_of_resolve {s : Scope} {name : String} {a : Arguments} {e : CallError}
    (h : s.resolve w name a = .error e) : (Failure.call e).Refusal := by
  unfold resolve at h
  split at h
  · cases h
    exact .unknownName _ _
  · rename_i d _
    unfold Delegate.resolve at h
    split at h
    · rename_i e' hprepare
      cases h
      exact d.refusal_of_prepare hprepare
    · split at h
      · cases h
        exact .notEstablished _ _
      · exact World.refusal_of_resolve h

/-- A call that lets no body run is refused. -/
theorem Target.refusal_of_resolve {f : Failure} (h : t.resolve w = .error f) : f.Refusal := by
  cases t with
  | member i name a =>
    simp only [resolve] at h
    cases hfound : w.resolve i name a with
    | error e =>
      rw [hfound] at h
      cases h
      exact World.refusal_of_resolve hfound
    | ok body =>
      rw [hfound] at h
      cases h
  | delegate r handle name a =>
    simp only [resolve, Registry.resolve] at h
    split at h
    · cases h
      exact .unknownScope _
    · rename_i s _
      cases hfound : s.resolve w name a with
      | error e =>
        rw [hfound] at h
        cases h
        exact Scope.refusal_of_resolve hfound
      | ok body =>
        rw [hfound] at h
        cases h

end Resolve

/-- What a body does, one action after the other. -/
inductive Course where
  /-- It ends. -/
  | finish (ended : Except Cause Value)
  /-- It changes the world and goes on by what the world was. -/
  | act (change : World → World) (next : World → Course)
  /-- It makes a call and goes on by what comes out of it. -/
  | call (t : Target) (next : Except Failure Value → Course)

namespace Course

/-- A single action, and the end it leads to. -/
def deed (f : World → World × Except Cause Value) : Course :=
  .act (fun w => (f w).1) fun w => .finish (f w).2

/-- Whether every failure of a call made on the way is what the body ends with. -/
def HandsOn : Course → Prop
  | .finish _ => True
  | .act _ next => ∀ w, (next w).HandsOn
  | .call _ next => (∀ f, next (.error f) = .finish (.error f.cause)) ∧ ∀ v, (next (.ok v)).HandsOn

end Course

/-- What every body does, by the level of nesting it is entered at. -/
abbrev Conduct := Nat → Body → Course

/-- A body that was entered. -/
structure Entry where
  /-- How deeply the call that entered it is nested. -/
  level : Nat
  /-- The body. -/
  body : Body
  /-- How it ended. -/
  ended : Except Cause Value
  /-- What came out of the call. -/
  returned : Except Failure Value

/-- The course of a body at a level of nesting, with the log of the bodies entered by its calls. -/
inductive Goes (conduct : Conduct) :
    Nat → Course → World → List Entry → World → Except Cause Value → Prop where
  /-- It ends. -/
  | finish {level : Nat} {w : World} (ended : Except Cause Value) :
      Goes conduct level (.finish ended) w [] w ended
  /-- It changes the world and goes on. -/
  | act {level : Nat} {change : World → World} {next : World → Course} {w w' : World}
      {log : List Entry} {ended : Except Cause Value}
      (rest : Goes conduct level (next w) (change w) log w' ended) :
      Goes conduct level (.act change next) w log w' ended
  /-- It makes a call that lets no body run, and goes on. -/
  | refused {level : Nat} {t : Target} {next : Except Failure Value → Course} {w w' : World}
      {f : Failure} {log : List Entry} {ended : Except Cause Value} (found : t.resolve w = .error f)
      (rest : Goes conduct level (next (.error f)) w log w' ended) :
      Goes conduct level (.call t next) w log w' ended
  /-- It makes a call that lets a body run its course one level deeper, and goes on. -/
  | entered {level : Nat} {t : Target} {next : Except Failure Value → Course} {w v w' : World}
      {body : Body} {inner log : List Entry} {done ended : Except Cause Value}
      (found : t.resolve w = .ok body)
      (goes : Goes conduct (level + 1) (conduct (level + 1) body) w inner v done)
      (rest : Goes conduct level (next (body.outcome done)) v log w' ended) :
      Goes conduct level (.call t next) w
        (⟨level + 1, body, done, body.outcome done⟩ :: inner ++ log) w' ended

/-- A call made at a level of nesting, with the log of the bodies entered for it. -/
inductive Made (conduct : Conduct) (level : Nat) (t : Target) (w : World) :
    List Entry → World → Except Failure Value → Prop where
  /-- It lets no body run. -/
  | refused {f : Failure} (found : t.resolve w = .error f) :
      Made conduct level t w [] w (.error f)
  /-- It lets a body run its course. -/
  | entered {w' : World} {body : Body} {inner : List Entry} {done : Except Cause Value}
      (found : t.resolve w = .ok body)
      (goes : Goes conduct level (conduct level body) w inner w' done) :
      Made conduct level t w (⟨level, body, done, body.outcome done⟩ :: inner) w'
        (body.outcome done)

/-- Whether a way to run bodies is what they do at a level of nesting. -/
def Follows (conduct : Conduct) (level : Nat) (run : Runner) : Prop :=
  ∀ (body : Body) (w : World), ∃ log, Goes conduct level (conduct level body) w log
    (run body.method body.receiver body.binding w).1
    (run body.method body.receiver body.binding w).2

section Log

variable {conduct : Conduct} {level : Nat} {run : Runner} {t : Target} {w w' : World}
  {log : List Entry}

/-- A call in a course is made one level deeper, and its log comes first. -/
theorem Goes.call {next : Except Failure Value → Course} {v : World} {inner : List Entry}
    {returned : Except Failure Value} {ended : Except Cause Value}
    (made : Made conduct (level + 1) t w inner v returned)
    (rest : Goes conduct level (next returned) v log w' ended) :
    Goes conduct level (.call t next) w (inner ++ log) w' ended := by
  cases made with
  | refused found => exact .refused found rest
  | entered found goes => exact .entered found goes rest

/-- A call that goes by bodies that follow a conduct is made by that conduct. -/
theorem Follows.exists_made (h : Follows conduct level run) (t : Target) (w : World) :
    ∃ log, Made conduct level t w log (t.callVia run w).1 (t.callVia run w).2 := by
  rw [t.callVia_eq]
  cases found : t.resolve w with
  | error f => exact ⟨[], .refused found⟩
  | ok body =>
    obtain ⟨inner, goes⟩ := h body w
    exact ⟨_, .entered found goes⟩

/-- Every way to run bodies is a conduct, one of bodies that do everything at once. -/
theorem follows_deed (run : Runner) (level : Nat) :
    Follows (fun _ body => .deed (run body.method body.receiver body.binding)) level run :=
  fun _ _ => ⟨[], .act (.finish _)⟩

/-- A course goes one way, with one log. -/
theorem Goes.unique {course : Course} {ended : Except Cause Value}
    (h : Goes conduct level course w log w' ended) {log₂ : List Entry} {w₂ : World}
    {ended₂ : Except Cause Value} (h₂ : Goes conduct level course w log₂ w₂ ended₂) :
    log₂ = log ∧ w₂ = w' ∧ ended₂ = ended := by
  induction h generalizing log₂ w₂ ended₂ with
  | finish ended =>
    cases h₂
    exact ⟨rfl, rfl, rfl⟩
  | act rest ih =>
    cases h₂ with
    | act rest₂ => exact ih rest₂
  | refused found rest ih =>
    cases h₂ with
    | refused found₂ rest₂ =>
      rw [found] at found₂
      cases found₂
      exact ih rest₂
    | entered found₂ goes₂ rest₂ =>
      rw [found] at found₂
      cases found₂
  | entered found goes rest deeper ih =>
    cases h₂ with
    | refused found₂ rest₂ =>
      rw [found] at found₂
      cases found₂
    | entered found₂ goes₂ rest₂ =>
      rw [found] at found₂
      cases found₂
      obtain ⟨rfl, rfl, rfl⟩ := deeper goes₂
      obtain ⟨rfl, rfl, rfl⟩ := ih rest₂
      exact ⟨rfl, rfl, rfl⟩

/-- A call does one thing, with one log. -/
theorem Made.unique {returned : Except Failure Value} (h : Made conduct level t w log w' returned)
    {log₂ : List Entry} {w₂ : World} {returned₂ : Except Failure Value}
    (h₂ : Made conduct level t w log₂ w₂ returned₂) :
    log₂ = log ∧ w₂ = w' ∧ returned₂ = returned := by
  cases h with
  | refused found =>
    cases h₂ with
    | refused found₂ =>
      rw [found] at found₂
      cases found₂
      exact ⟨rfl, rfl, rfl⟩
    | entered found₂ goes₂ =>
      rw [found] at found₂
      cases found₂
  | entered found goes =>
    cases h₂ with
    | refused found₂ =>
      rw [found] at found₂
      cases found₂
    | entered found₂ goes₂ =>
      rw [found] at found₂
      cases found₂
      obtain ⟨rfl, rfl, rfl⟩ := goes.unique goes₂
      exact ⟨rfl, rfl, rfl⟩

/-- The calls of a course enter bodies at deeper levels, and an error of a body comes out as the
failure of its method. -/
theorem Goes.entries {course : Course} {ended : Except Cause Value}
    (h : Goes conduct level course w log w' ended) :
    ∀ e ∈ log, level < e.level ∧ e.returned = e.body.outcome e.ended := by
  induction h with
  | finish ended => simp
  | act rest ih => exact ih
  | refused found rest ih => exact ih
  | @entered level _ _ _ _ _ body inner log done ended found goes rest deeper ih =>
    intro e he
    rcases List.mem_append.1 he with he | he
    · rcases List.mem_cons.1 he with rfl | he
      · exact ⟨Nat.lt_succ_self level, rfl⟩
      · obtain ⟨hlevel, hreturned⟩ := deeper e he
        exact ⟨by omega, hreturned⟩
    · exact ih e he

/-- Where failures are handed on, an error that a body inside a course ends with is what the course
ends with or stands on. -/
theorem Goes.handsOn (hands : ∀ level body, (conduct level body).HandsOn) {course : Course}
    {ended : Except Cause Value} (h : Goes conduct level course w log w' ended)
    (hcourse : course.HandsOn) {e : Entry} (he : e ∈ log) {c : Cause} (hc : e.ended = .error c) :
    ∃ c', ended = .error c' ∧ c ∈ c' :: c'.sources := by
  induction h with
  | finish ended => simp at he
  | act rest ih => exact ih (hcourse _) he
  | refused found rest ih =>
    have hnext := hcourse.1
    rw [hnext] at rest
    cases rest
    simp at he
  | @entered level _ next _ _ _ body inner log done ended found goes rest deeper ih =>
    cases done with
    | ok v =>
      -- What is handed on by the entered body would be its error.
      have hinner : e ∉ inner := fun hmem => by
        obtain ⟨c', hdone, -⟩ := deeper (hands _ body) hmem
        cases hdone
      have hself : e ≠ ⟨level + 1, body, .ok v, body.outcome (.ok v)⟩ := by
        rintro rfl
        cases hc
      have hlog : e ∈ log := by
        rcases List.mem_append.1 he with he | he
        · rcases List.mem_cons.1 he with he | he
          · exact absurd he hself
          · exact absurd he hinner
        · exact he
      exact ih (hcourse.2 v) hlog
    | error c₀ =>
      have hnext : next (body.outcome (.error c₀)) =
          .finish (.error (.call (.method body.method.signature.name c₀))) := hcourse.1 _
      rw [hnext] at rest
      cases rest
      refine ⟨_, rfl, List.mem_cons_of_mem _ ?_⟩
      have hsources : (Cause.call (.method body.method.signature.name c₀)).sources =
          c₀ :: c₀.sources := rfl
      rw [hsources]
      rw [List.append_nil] at he
      rcases List.mem_cons.1 he with rfl | he
      · cases hc
        exact List.mem_cons_self
      · obtain ⟨c', hdone, hmem⟩ := deeper (hands _ body) he
        cases hdone
        exact hmem

end Log

end Delegation
