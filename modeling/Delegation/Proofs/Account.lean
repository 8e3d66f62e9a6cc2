import Delegation.Proofs.Nesting
/-!
# The account of a call

Scripts are bodies that follow a conduct: a script that calls another member
makes one call and ends as that call ends, every other one is a single deed.
The way a call ends then tells what was entered for it. A failure that is not
a method's means that no body was entered and nothing has changed; a value or
a method's failure means that the body which the call lets run was entered
once by the call itself. An error inside a body, however deep, leaves the call
no other way to fail than as the failure of its own method.
-/

namespace Delegation

section Script

/-- The course of a script that calls a member: its outcome is the script's. -/
def Course.relay (t : Target) : Course :=
  .call t fun returned => .finish (returned.mapError Failure.cause)

/-- What scripts do where calls may be nested up to a depth: a script that calls another member is
a call in its course, every other one a single deed. -/
def scripted (depth : Nat) : Conduct := fun level body =>
  if level < depth then
    match body.method.script with
    | .call name => .relay (.member body.receiver name body.binding.again)
    | _ => .deed (World.run 1 body.method body.receiver body.binding)
  else .deed (World.run 0 body.method body.receiver body.binding)

/-- Scripts hand the failures of their calls on. -/
theorem scripted_handsOn (depth level : Nat) (body : Body) :
    (scripted depth level body).HandsOn := by
  unfold scripted
  split
  · split
    · exact ⟨fun _ => rfl, fun _ => trivial⟩
    · exact fun _ => trivial
  · exact fun _ => trivial

/-- A script that calls a member does what the call does and ends as the call ends. -/
theorem World.run_of_call {m : Method} {name : String} (h : m.script = .call name) (depth : Nat)
    (i : InstanceId) (b : Binding) (w : World) : World.run (depth + 1) m i b w =
      (((Target.member i name b.again).callVia (World.run depth) w).1,
        ((Target.member i name b.again).callVia (World.run depth) w).2.mapError Failure.cause) := by
  simp only [World.run, h, Target.callVia]
  cases (w.callVia (World.run depth) i name b.again).2 <;> rfl

/-- Any other script does at every depth what it does without calls. -/
theorem World.run_of_not_call {m : Method} (h : ∀ name, m.script ≠ .call name) (depth : Nat)
    (i : InstanceId) (b : Binding) (w : World) :
    World.run (depth + 1) m i b w = World.run 1 m i b w := by
  simp only [World.run]
  cases hs : m.script with
  | call name => exact absurd hs (h name)
  | _ => rfl

/-- Scripts run as their courses say, with the calls that are left nested ever deeper. -/
theorem run_follows {depth : Nat} (left level : Nat) (h : level + left = depth) :
    Follows (scripted depth) level (World.run left) := by
  induction left generalizing level with
  | zero =>
    intro body w
    rw [scripted, if_neg (by omega)]
    exact ⟨[], .act (.finish _)⟩
  | succ left ih =>
    intro body w
    rw [scripted, if_pos (by omega)]
    split
    · rename_i name hs
      obtain ⟨log, made⟩ := (ih (level + 1) (by omega)).exists_made
        (.member body.receiver name body.binding.again) w
      rw [World.run_of_call hs]
      exact ⟨log ++ [], .call made (.finish _)⟩
    · rename_i hs
      rw [World.run_of_not_call hs]
      exact ⟨[], .act (.finish _)⟩

end Script

/-- A call of a member of an instance, or of a delegate by scope and name. -/
def Target.call (w : World) : Target → World × Except Failure Value
  | .member i name a =>
    let done := w.callMethod i name a
    (done.1, done.2.mapError .call)
  | .delegate r h name a => r.call w h name a

/-- A call runs the scripts of methods. -/
theorem Target.call_eq (t : Target) (w : World) :
    t.call w = t.callVia (World.run w.depth) w := by
  cases t <;> rfl

/-- What the way a call ends tells of the bodies in its log. -/
structure Target.Account (conduct : Conduct) (t : Target) (w : World)
    (done : World × Except Failure Value) (log : List Entry) : Prop where
  /-- The log is that of the call. -/
  made : Made conduct 0 t w log done.1 done.2
  /-- The call has no other log and no other effect. -/
  only : ∀ log' w' returned, Made conduct 0 t w log' w' returned →
    log' = log ∧ w' = done.1 ∧ returned = done.2
  /-- A failure that is not a method's keeps every body from running and the world as it was. -/
  untouched : ∀ f, done.2 = .error f → (∀ member c, f ≠ .call (.method member c)) →
    f.Refusal ∧ log = [] ∧ done.1 = w
  /-- Else the body that the call lets run is entered once by the call itself. -/
  entered : ((∃ v, done.2 = .ok v) ∨ ∃ member c, done.2 = .error (.call (.method member c))) →
    ∃ body ended inner, t.resolve w = .ok body ∧ log = ⟨0, body, ended, done.2⟩ :: inner ∧
      ∀ e ∈ inner, 0 < e.level
  /-- What a body ends with as its error, at any level, comes out of the call that entered it as
  the failure of its method. -/
  wrapped : ∀ e ∈ log, ∀ c, e.ended = .error c →
    e.returned = .error (.call (.method e.body.method.signature.name c))
  /-- After an error inside any body, the call itself can fail by its own method alone. -/
  surfaced : ∀ e ∈ log, ∀ c, e.ended = .error c → ∃ body, t.resolve w = .ok body ∧
    ∀ f, done.2 = .error f → ∃ c', f = .call (.method body.method.signature.name c')
  /-- If bodies hand failures on, the call does fail by its method, and the error is below that
  failure. -/
  handedOn : (∀ level body, (conduct level body).HandsOn) → ∀ e ∈ log, ∀ c, e.ended = .error c →
    ∃ body c', t.resolve w = .ok body ∧
      done.2 = .error (.call (.method body.method.signature.name c')) ∧ c ∈ c' :: c'.sources

/-- The log of a call is an account of it. -/
theorem Made.account {conduct : Conduct} {t : Target} {w : World}
    {done : World × Except Failure Value} {log : List Entry}
    (h : Made conduct 0 t w log done.1 done.2) : t.Account conduct w done log := by
  obtain ⟨w', returned⟩ := done
  cases h with
  | @refused f found =>
    have hf : f.Refusal := t.refusal_of_resolve found
    exact {
      made := .refused found
      only := fun _ _ _ => (Made.refused found).unique
      untouched := by
        rintro f' ⟨⟩ -
        exact ⟨hf, rfl, rfl⟩
      entered := by
        rintro (⟨v, ⟨⟩⟩ | ⟨member, c, ⟨⟩⟩)
        cases hf
      wrapped := by simp
      surfaced := by simp
      handedOn := by simp }
  | @entered w' body inner ended found goes =>
    have hinner := goes.entries
    exact {
      made := .entered found goes
      only := fun _ _ _ => (Made.entered found goes).unique
      untouched := by
        intro f hreturned hf
        cases ended with
        | ok v => cases hreturned
        | error c =>
          cases hreturned
          exact absurd rfl (hf _ _)
      entered := fun _ => ⟨body, ended, inner, found, rfl, fun e he => (hinner e he).1⟩
      wrapped := by
        intro e he c hc
        rcases List.mem_cons.1 he with rfl | he
        · cases hc
          rfl
        · rw [(hinner e he).2, hc]
          rfl
      surfaced := by
        intro e he c hc
        refine ⟨body, found, fun f hreturned => ?_⟩
        cases ended with
        | ok v => cases hreturned
        | error c' =>
          cases hreturned
          exact ⟨c', rfl⟩
      handedOn := by
        intro hands e he c hc
        refine ⟨body, ?_⟩
        rcases List.mem_cons.1 he with rfl | he
        · cases hc
          exact ⟨c, found, rfl, List.mem_cons_self⟩
        · obtain ⟨c', rfl, hmem⟩ := goes.handsOn hands (hands 0 body) he hc
          exact ⟨c', found, rfl, hmem⟩ }

/-- Every call of a member or a delegate, in any world and by any registry, has one log of the
bodies entered for it, and the way it ends tells what the log holds. That is so for scripts, which
hand every failure on, and for bodies that follow any conduct. A call works on one state of a
registry and cannot change it. -/
theorem Target.call_accounted (t : Target) (w : World) :
    (∀ level body, (scripted w.depth level body).HandsOn) ∧
      (∃ log, t.Account (scripted w.depth) w (t.call w) log) ∧
      ∀ conduct run, Follows conduct 0 run → ∃ log, t.Account conduct w (t.callVia run w) log := by
  have general : ∀ conduct run, Follows conduct 0 run →
      ∃ log, t.Account conduct w (t.callVia run w) log := by
    intro conduct run h
    obtain ⟨log, made⟩ := h.exists_made t w
    exact ⟨log, made.account⟩
  refine ⟨scripted_handsOn w.depth, ?_, general⟩
  rw [t.call_eq]
  exact general _ _ (run_follows w.depth 0 (Nat.zero_add _))

/-- A method that only calls another member. -/
def sampleCaller (name callee : String) : Method where
  signature := ⟨name, [], none, none, rfl⟩
  script := .call callee

/-- The world of one instance whose method calls another one, which calls a member that the class
does not have. -/
def nestedWorld : World where
  hierarchy := ⟨[⟨"Desk", [], [], .ofEntries [("order", .method (sampleCaller "order" "serve")),
    ("serve", .method (sampleCaller "serve" "absent"))]⟩]⟩
  instances := [⟨0, ∅, none⟩]
  journals := ∅

/-- A refused call inside two bodies comes out as the failure of the outer method, and the same
refused call outside of them as itself. -/
theorem Target.call_accounted_sample :
    (∃ log, (Target.member 0 "order" ⟨[], ∅⟩).Account (scripted nestedWorld.depth) nestedWorld
        ((Target.member 0 "order" ⟨[], ∅⟩).call nestedWorld) log ∧ log ≠ []) ∧
      ((Target.member 0 "order" ⟨[], ∅⟩).call nestedWorld).2 =
        .error (.call (.method "order" (.call (.method "serve"
          (.call (.noSuchMember "Desk" "absent")))))) ∧
      (∃ log, (Target.member 0 "absent" ⟨[], ∅⟩).Account (scripted nestedWorld.depth) nestedWorld
        ((Target.member 0 "absent" ⟨[], ∅⟩).call nestedWorld) log ∧ log = []) ∧
      ((Target.member 0 "absent" ⟨[], ∅⟩).call nestedWorld).2 =
        .error (.call (.noSuchMember "Desk" "absent")) := by
  have hinside : ((Target.member 0 "order" ⟨[], ∅⟩).call nestedWorld).2 =
      .error (.call (.method "order" (.call (.method "serve"
        (.call (.noSuchMember "Desk" "absent")))))) := rfl
  have houtside : ((Target.member 0 "absent" ⟨[], ∅⟩).call nestedWorld).2 =
      .error (.call (.noSuchMember "Desk" "absent")) := rfl
  obtain ⟨-, ⟨log, account⟩, -⟩ :=
    Target.call_accounted (.member 0 "order" ⟨[], ∅⟩) nestedWorld
  obtain ⟨-, ⟨log', account'⟩, -⟩ :=
    Target.call_accounted (.member 0 "absent" ⟨[], ∅⟩) nestedWorld
  have hentered : log ≠ [] := by
    obtain ⟨_, _, _, -, rfl, -⟩ := account.entered (.inr ⟨_, _, hinside⟩)
    exact List.cons_ne_nil _ _
  have hrefused : log' = [] :=
    (account'.untouched _ houtside (by rintro _ _ ⟨⟩)).2.1
  exact ⟨⟨log, account, hentered⟩, hinside, ⟨log', account', hrefused⟩, houtside⟩

end Delegation
