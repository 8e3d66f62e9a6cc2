import Delegation.Failure
import Mathlib.Data.List.Chain
/-!
# Messages and the errors below them

A failure stands on an error, that one perhaps on another, and so on. Some
errors put words before the message of the error they stand on, some say just
what that error says and stand on what it stands on. Either way the message of
an error ends with the message of the error it stands on, so it ends with
those of all errors below. Going from error to error comes to an end, for the
steps go through the finite list of the errors below.
-/

namespace Delegation

variable {c : Cause} {e : CallError} {text tail rest : String}

/-- A text ends with another one. -/
def EndsWith (text tail : String) : Prop := ∃ before, text = before ++ tail

/-- What stands after other words is what the whole ends with. -/
theorem endsWith_append (before tail : String) : EndsWith (before ++ tail) tail := ⟨before, rfl⟩

/-- A text ends with what an end of it ends with. -/
theorem EndsWith.trans (h : EndsWith text tail) (h' : EndsWith tail rest) : EndsWith text rest := by
  obtain ⟨before, rfl⟩ := h
  obtain ⟨between, rfl⟩ := h'
  exact ⟨before ++ between, by rw [String.append_assoc]⟩

instance : Trans EndsWith EndsWith EndsWith := ⟨EndsWith.trans⟩

/-- A call error stands on an error only as a method's failure, whose message ends with that of
the error. -/
theorem CallError.endsWith_source (h : e.source? = some c) : EndsWith e.message c.message := by
  cases e with
  | method member source =>
    obtain rfl : source = c := Option.some.inj h
    exact endsWith_append _ _
  | _ => cases h

mutual

/-- The message of a cause ends with that of the error it stands on. -/
theorem Cause.endsWith_source {c d : Cause} (h : c.source? = some d) :
    EndsWith c.message d.message := by
  match c with
  | .call e => exact CallError.endsWith_source h
  | .failure f => exact Failure.endsWith_source h
  | .plain _ | .countTooLarge | .endless | .conversion _ | .registry _ | .dispatch _
  | .declaration _ => cases h

/-- The message of a failure ends with that of the error it stands on. -/
theorem Failure.endsWith_source {f : Failure} {d : Cause} (h : f.source? = some d) :
    EndsWith f.message d.message := by
  match f with
  | .custom c => exact Cause.endsWith_source h
  | .call _ | .registry _ | .dispatch _ | .declaration _ =>
    cases h
    exact endsWith_append _ _

end

/-- The messages of a cause and of the errors below it, each an end of the one before. -/
theorem Cause.messages_chain (c : Cause) :
    (c.message :: c.sources.map Cause.message).IsChain EndsWith := by
  -- The errors below are one more than those below the error that the cause stands on.
  induction hn : c.sources.length generalizing c with
  | zero =>
    rw [List.length_eq_zero_iff.1 hn]
    exact .singleton _
  | succ n ih =>
    cases hsource : c.source? with
    | none =>
      rw [c.sources_eq, hsource] at hn
      cases hn
    | some d =>
      have hsources : c.sources = d :: d.sources := by
        rw [c.sources_eq, hsource]
        rfl
      rw [hsources] at hn ⊢
      exact .cons_cons (endsWith_source hsource) (ih d (Nat.succ.inj hn))

/-- The error that a number of steps from an error to the one it stands on lead to, after the
first one from a failure. -/
def Failure.sourceAfter? (f : Failure) : Nat → Option Cause
  | 0 => f.source?
  | n + 1 => (f.sourceAfter? n).bind Cause.source?

/-- Steps from a cause go along the errors below it. -/
theorem Cause.source?_getElem? (c : Cause) (n : Nat) :
    ((c :: c.sources)[n]?).bind Cause.source? = c.sources[n]? := by
  induction n generalizing c with
  | zero =>
    rw [c.sources_eq, List.getElem?_cons_zero, Option.bind_some]
    cases c.source? <;> rfl
  | succ n ih =>
    rw [List.getElem?_cons_succ, c.sources_eq]
    cases c.source? with
    | none => rfl
    | some d => exact ih d

/-- Steps from a failure go along the errors below it. -/
theorem Failure.sourceAfter?_eq (f : Failure) (n : Nat) : f.sourceAfter? n = f.sources[n]? := by
  induction n with
  | zero =>
    rw [f.sources_eq, sourceAfter?]
    cases f.source? <;> rfl
  | succ n ih =>
    rw [sourceAfter?, ih, f.sources_eq]
    cases f.source? with
    | none => rfl
    | some d => exact d.source?_getElem? n

/-- Following a failure to the error it stands on, and on from there, comes to an end. What is met
on the way are the errors below the failure, in order; the messages of the failure and of these
each end with the next one; so the failure's message ends with that of every error below it. -/
theorem Failure.message_ends_with_sources (f : Failure) :
    (∃ last, ∀ n, last ≤ n → f.sourceAfter? n = none) ∧
    (∀ n, f.sourceAfter? n = f.sources[n]?) ∧
    (f.message :: f.sources.map Cause.message).IsChain EndsWith ∧
    ∀ c ∈ f.sources, EndsWith f.message c.message := by
  have hchain : (f.message :: f.sources.map Cause.message).IsChain EndsWith := by
    rw [f.sources_eq]
    cases hsource : f.source? with
    | none => exact .singleton _
    | some d => exact .cons_cons (endsWith_source hsource) d.messages_chain
  refine ⟨⟨f.sources.length, fun n hn => ?_⟩, f.sourceAfter?_eq, hchain, fun c hc => ?_⟩
  · rw [f.sourceAfter?_eq]
    exact List.getElem?_eq_none hn
  · have hpairs := List.isChain_iff_pairwise.1 hchain
    exact (List.pairwise_cons.1 hpairs).1 c.message (List.mem_map_of_mem hc)

/-- A failure within a failure's cause: the message still ends with the words it started from. -/
example : (Failure.call (.method "save" (.failure (.call (.method "load"
    (.plain "disk full")))))).message =
      "call error: method 'save' failed: call error: method 'load' failed: disk full" := by
  decide

end Delegation
