import Mathlib.Data.List.Forall2
import Delegation.Proofs.Account
import Delegation.Proofs.Forwarding
import Delegation.Proofs.Renaming
/-!
# Journals show the calls recorded in them

A method that records writes one entry into its journal whenever it is invoked
and its arguments bind; nobody else writes there, and anybody may empty the
journal. So after any history, with calls made directly, through registries or
inside other bodies, a journal shows the invocations of its methods since it was
emptied last, one entry each in the order in which their bodies were entered.
An entry leaves nothing out: the parameters of a signature have distinct names,
so none is lost when they are collected in a map.

The history does not say what the bodies between are; they may do whatever they
like as long as they leave journals alone or empty them. Every call of the
scripted methods, and every course of arbitrary bodies that keep to this, is such
a history.
-/

namespace Delegation

/-- The journal that a body records its call in, if it is one that does. -/
def Body.journal? (body : Body) : Option String :=
  match body.method.script with
  | .record journal _ => some journal
  | _ => none

/-- What concerns journals. -/
inductive Event where
  /-- A body is entered in a world. -/
  | entered (body : Body) (w : World)
  /-- A journal is emptied. -/
  | cleared (journal : String)

namespace Event

/-- The body that is entered. -/
def body? : Event → Option Body
  | entered body _ => some body
  | cleared _ => none

/-- The body that is entered and the world it is entered in, if it records in a journal. -/
def invocation? (journal : String) : Event → Option (Body × World)
  | entered body w => if body.journal? = some journal then some (body, w) else none
  | cleared _ => none

end Event

/-- The invocations of the methods that record in a journal. -/
def invocations (journal : String) (events : List Event) : List (Body × World) :=
  events.filterMap (·.invocation? journal)

/-- A body that is invoked on an instance there is, its arguments bound. -/
structure Body.Invoked (body : Body) (w : World) : Prop where
  /-- It runs on what arguments were bound to. -/
  bound : ∃ a, body.method.signature.bind a = .ok body.binding
  /-- It runs on an instance. -/
  receiver : ∃ c, w.classOf? body.receiver = some c

/-- What may become of a world, with the events on the way. -/
inductive Proceeds : World → List Event → World → Prop where
  /-- Nothing happens. -/
  | rest (w : World) : Proceeds w [] w
  /-- Something happens that leaves the journals as they are. -/
  | changed {w v w' : World} {events : List Event} (kept : ∀ j, v.calls j = w.calls j)
      (next : Proceeds v events w') : Proceeds w events w'
  /-- A journal is emptied. -/
  | cleared {w w' : World} {events : List Event} (journal : String)
      (next : Proceeds (w.clear journal) events w') : Proceeds w (.cleared journal :: events) w'
  /-- A method that records is invoked. -/
  | recorded {w w' : World} {events : List Event} {body : Body} {journal : String}
      (invoked : body.Invoked w) (script : body.journal? = some journal)
      (next : Proceeds (World.run 1 body.method body.receiver body.binding w).1 events w') :
      Proceeds w (.entered body w :: events) w'
  /-- Another method is invoked, in whose body anything may happen. -/
  | entered {w v w' : World} {inner events : List Event} {body : Body} (invoked : body.Invoked w)
      (script : body.journal? = none) (deeper : Proceeds w inner v)
      (next : Proceeds v events w') : Proceeds w (.entered body w :: inner ++ events) w'

/-- An entry shows the invocation of a body in a world. -/
structure RecordedCall.Shows (entry : RecordedCall) (body : Body) (w : World) : Prop where
  /-- It has the name in the method's signature. -/
  method : entry.method = body.method.signature.name
  /-- It has the name of the receiver's own class. -/
  className : ∃ c, w.classOf? body.receiver = some c ∧ entry.className = w.hierarchy.name c
  /-- Its parameters are those that the body received, with their values. -/
  params : ∀ name v, entry.params[name]? = some v ↔ (name, v) ∈ body.binding.params
  /-- Every parameter of the signature is there. -/
  present : ∀ name ∈ body.method.signature.paramNames, name ∈ entry.params
  /-- No two of them are merged. -/
  unmerged : entry.params.size = body.method.signature.params.length
  /-- It has the values collected by position, in their order. -/
  varargs : entry.varargs = body.binding.varargs
  /-- It has the values collected by keyword. -/
  varkw : entry.varkw = body.binding.varkw

/-- A journal shows invocations, one entry each in their order; its latest call is the last of them,
and it counts them. -/
structure World.Logs (w : World) (journal : String) (xs : List (Body × World)) : Prop where
  /-- Every entry shows its invocation. -/
  calls : List.Forall₂ (fun entry x => entry.Shows x.1 x.2) (w.calls journal) xs
  /-- The latest call shows the last invocation. -/
  last : ∀ x ∈ xs.getLast?, ∃ entry, w.lastCall? journal = some entry ∧ entry.Shows x.1 x.2
  /-- Without invocations there is no latest call. -/
  none : xs = [] → w.lastCall? journal = none
  /-- The calls are as many as the invocations. -/
  count : w.callCount journal = xs.length

section Entry

variable {body : Body} {w : World}

/-- The entry that a body makes in its journal. -/
def Body.entryIn (body : Body) (w : World) : RecordedCall :=
  body.binding.entry body.method.signature.name (w.className body.receiver)

/-- A map made of entries with distinct names has these entries and no other ones. -/
theorem NameMap.getElem?_ofEntries_eq_some_iff {α : Type} {entries : List (String × α)}
    (h : (entries.map (·.1)).Nodup) (name : String) (v : α) :
    (NameMap.ofEntries entries)[name]? = some v ↔ (name, v) ∈ entries := by
  refine ⟨fun hget => ?_, fun he => NameMap.getElem?_ofEntries h he⟩
  have hmem : name ∈ NameMap.ofEntries entries :=
    Std.ExtTreeMap.mem_iff_isSome_getElem?.mpr (by rw [hget]; rfl)
  rw [NameMap.mem_ofEntries] at hmem
  obtain ⟨e, he, rfl⟩ := List.mem_map.mp hmem
  rw [NameMap.getElem?_ofEntries h he] at hget
  exact Option.some.inj hget ▸ he

/-- Names that are all distinct are all kept. -/
theorem NameMap.size_ofEntries {α : Type} {entries : List (String × α)}
    (h : (entries.map (·.1)).Nodup) : (NameMap.ofEntries entries).size = entries.length := by
  have hdistinct : entries.Pairwise fun a b => ¬compare a.1 b.1 = .eq :=
    (List.pairwise_map.1 h).imp fun hne heq => hne (Std.LawfulEqCmp.eq_of_compare heq)
  rw [ofEntries, Std.ExtTreeMap.size_insertMany_list hdistinct fun a ha =>
    absurd ha Std.ExtTreeMap.not_mem_empty]
  exact Nat.zero_add _

/-- The entry of an invoked body shows its invocation. -/
theorem Body.Invoked.shows (h : body.Invoked w) : (body.entryIn w).Shows body w := by
  obtain ⟨a, ha⟩ := h.bound
  obtain ⟨c, hc⟩ := h.receiver
  have hnames : body.binding.params.map (·.1) = body.method.signature.paramNames :=
    Signature.bind_names ha
  have hnodup : (body.binding.params.map (·.1)).Nodup := by
    rw [hnames]
    exact body.method.signature.paramNames_nodup
  have hparams : (body.entryIn w).params = .ofEntries body.binding.params := rfl
  refine { method := rfl, className := ⟨c, hc, ?className⟩, params := ?params, present := ?present,
           unmerged := ?unmerged, varargs := rfl, varkw := rfl }
  case className =>
    change w.className body.receiver = w.hierarchy.name c
    rw [World.className, hc]
    rfl
  case params => exact NameMap.getElem?_ofEntries_eq_some_iff hnodup
  case present =>
    intro name hname
    rwa [hparams, NameMap.mem_ofEntries, hnames]
  case unmerged =>
    rw [hparams, NameMap.size_ofEntries hnodup, ← List.length_map, hnames, Signature.paramNames,
      List.length_map]

/-- A body that records makes its entry and does nothing else. -/
theorem Body.run_of_journal {journal : String} (h : body.journal? = some journal) :
    (World.run 1 body.method body.receiver body.binding w).1 =
      w.record journal (body.entryIn w) := by
  unfold journal? at h
  simp only [World.run]
  cases hscript : body.method.script with
  | record other v =>
    rw [hscript] at h
    obtain rfl := Option.some.inj h
    rfl
  | _ =>
    rw [hscript] at h
    cases h

end Entry

/-- What an event makes of the calls of a journal. -/
def Event.replay (journal : String) (calls : List RecordedCall) : Event → List RecordedCall
  | entered body w => if body.journal? = some journal then calls ++ [body.entryIn w] else calls
  | cleared other => if other = journal then [] else calls

section Replay

variable {journal : String}

/-- As long as a journal is not emptied, it grows by one entry for each of its invocations. -/
theorem replay_of_not_cleared {events : List Event} (h : .cleared journal ∉ events)
    (calls : List RecordedCall) : events.foldl (Event.replay journal) calls =
      calls ++ (invocations journal events).map fun x => x.1.entryIn x.2 := by
  induction events generalizing calls with
  | nil => simp [invocations]
  | cons e events ih =>
    have hrest := ih fun hmem => h (List.mem_cons_of_mem _ hmem)
    rw [List.foldl_cons, hrest]
    cases e with
    | entered body w =>
      by_cases hj : body.journal? = some journal
      · simp [Event.replay, invocations, Event.invocation?, hj]
      · simp [Event.replay, invocations, Event.invocation?, hj]
    | cleared other =>
      have hother : other ≠ journal := by
        rintro rfl
        exact h (List.mem_cons_self ..)
      simp [Event.replay, invocations, Event.invocation?, hother]

/-- What a journal holds after a history is told by the events. -/
theorem Proceeds.calls {w w' : World} {events : List Event} (h : Proceeds w events w') :
    w'.calls journal = events.foldl (Event.replay journal) (w.calls journal) := by
  induction h with
  | rest w => rfl
  | changed kept next ih => rw [ih, kept]
  | cleared other next ih =>
    rw [ih, World.calls_clear, List.foldl_cons]
    congr 1
    simp only [Event.replay, eq_comm]
  | @recorded w w' events body other invoked script next ih =>
    rw [ih, body.run_of_journal script, World.calls_record, List.foldl_cons]
    congr 1
    by_cases hother : journal = other
    · subst hother
      simp [Event.replay, script]
    · have hscript : body.journal? ≠ some journal := by
        rw [script]
        exact fun heq => hother (Option.some.inj heq).symm
      simp [Event.replay, hother, hscript]
  | @entered w v w' inner events body invoked script deeper next ihd ih =>
    have hsilent : Event.replay journal (w.calls journal) (.entered body w) = w.calls journal := by
      simp [Event.replay, script]
    rw [ih, ihd, List.cons_append, List.foldl_cons, hsilent, List.foldl_append]

/-- Every body that is entered was invoked. -/
theorem Proceeds.invoked {w w' : World} {events : List Event} (h : Proceeds w events w')
    {body : Body} {v : World} (hmem : .entered body v ∈ events) : body.Invoked v := by
  induction h with
  | rest w => cases hmem
  | changed kept next ih => exact ih hmem
  | cleared other next ih => exact ih (by simpa using hmem)
  | recorded invoked script next ih =>
    rcases List.mem_cons.mp hmem with heq | hmem
    · cases heq
      exact invoked
    · exact ih hmem
  | entered invoked script deeper next ihd ih =>
    rcases List.mem_append.mp hmem with hmem | hmem
    · rcases List.mem_cons.mp hmem with heq | hmem
      · cases heq
        exact invoked
      · exact ihd hmem
    · exact ih hmem

/-- Histories that follow one another are one history. -/
theorem Proceeds.append {w v w' : World} {events events' : List Event} (h : Proceeds w events v)
    (h' : Proceeds v events' w') : Proceeds w (events ++ events') w' := by
  induction h with
  | rest w => exact h'
  | changed kept next ih => exact .changed kept (ih h')
  | cleared journal next ih => exact .cleared journal (ih h')
  | recorded invoked script next ih => exact .recorded invoked script (ih h')
  | entered invoked script deeper next ihd ih =>
    rw [List.append_assoc]
    exact .entered invoked script deeper (ih h')

/-- A journal that holds the entries of some invocations shows them. -/
theorem World.logs_of_calls {w : World} {xs : List (Body × World)}
    (hxs : ∀ x ∈ xs, x.1.Invoked x.2)
    (h : w.calls journal = xs.map fun x => x.1.entryIn x.2) : w.Logs journal xs where
  calls := by
    rw [h, List.forall₂_map_left_iff, List.forall₂_same]
    exact fun x hx => (hxs x hx).shows
  last := by
    intro x hx
    refine ⟨x.1.entryIn x.2, ?_, (hxs x (List.mem_of_mem_getLast? hx)).shows⟩
    rw [lastCall?, h, List.getLast?_map, hx]
    rfl
  none := by
    rintro rfl
    rw [lastCall?, h]
    rfl
  count := by rw [callCount, h, List.length_map]

/-- After a history a journal shows the invocations of its methods since it was emptied last, or
since it was empty at the beginning. -/
theorem Proceeds.logs {w w' : World} {events : List Event} (h : Proceeds w events w') :
    (∀ before after, events = before ++ .cleared journal :: after →
      .cleared journal ∉ after → w'.Logs journal (invocations journal after)) ∧
    (w.calls journal = [] → .cleared journal ∉ events →
      w'.Logs journal (invocations journal events)) := by
  have hinvoked {part : List Event} (hpart : part ⊆ events) :
      ∀ x ∈ invocations journal part, x.1.Invoked x.2 := by
    intro x hx
    obtain ⟨e, he, hxe⟩ := List.mem_filterMap.mp hx
    cases e with
    | entered body v =>
      simp only [Event.invocation?, Option.ite_none_right_eq_some, Option.some.injEq] at hxe
      obtain ⟨-, rfl⟩ := hxe
      exact h.invoked (hpart he)
    | cleared other => cases hxe
  constructor
  · rintro before after rfl hafter
    refine World.logs_of_calls (hinvoked fun e he => by simp [he]) ?_
    rw [h.calls, List.foldl_append, List.foldl_cons, replay_of_not_cleared hafter, Event.replay,
      if_pos rfl, List.nil_append]
  · intro hempty hevents
    refine World.logs_of_calls (hinvoked fun _ he => he) ?_
    rw [h.calls, replay_of_not_cleared hevents, hempty, List.nil_append]

end Replay

/-- The bodies that are entered. -/
def enteredBodies (events : List Event) : List Body := events.filterMap Event.body?

/-- Whether a course leaves the journals to the calls it makes, but for those it may empty. -/
def Course.Discreet (may : String → Prop) : Course → Prop
  | .finish _ => True
  | .act change next =>
    ((∀ w j, (change w).calls j = w.calls j) ∨ ∃ j, may j ∧ change = fun w => w.clear j) ∧
      ∀ w, (next w).Discreet may
  | .call _ next => ∀ returned, (next returned).Discreet may

/-- Whether a body may take a course: one that records does this alone, any other one leaves the
journals to its calls. -/
def Body.Takes (may : String → Prop) (body : Body) (course : Course) : Prop :=
  match body.journal? with
  | some _ => course = .deed (World.run 1 body.method body.receiver body.binding)
  | none => course.Discreet may

/-- A history that enters the bodies of a log. -/
structure Chronicle (may : String → Prop) (w : World) (log : List Entry) (w' : World)
    (events : List Event) : Prop where
  /-- It is a history. -/
  history : Proceeds w events w'
  /-- The bodies that are entered are those of the log, in their order. -/
  bodies : enteredBodies events = log.map (·.body)
  /-- Only those journals are emptied that may be. -/
  emptied : ∀ j, .cleared j ∈ events → may j

section Courses

variable {may : String → Prop} {conduct : Conduct} {level : Nat} {t : Target} {w v w' : World}
  {inner log : List Entry} {body : Body} {course : Course} {ended : Except Cause Value}

/-- The method of a body is bound to the call's arguments, and its receiver is an instance. -/
theorem World.invoked_of_resolve {i : InstanceId} {name : String} {a : Arguments}
    (h : w.resolve i name a = .ok body) : body.Invoked w := by
  unfold resolve at h
  cases hi : w.classOf? i with
  | none => simp [hi] at h
  | some c =>
    simp only [hi, Option.bind_some] at h
    split at h
    · rename_i m _
      unfold Method.resolve at h
      cases hb : m.signature.bind a with
      | error e => simp [hb] at h
      | ok b =>
        simp only [hb, Except.ok.injEq] at h
        subst h
        exact ⟨⟨a, hb⟩, ⟨c, hi⟩⟩
    · cases h
    · cases h

/-- Renaming errors makes no success of one. -/
theorem mapError_eq_ok_iff {ε ε' α : Type} {f : ε → ε'} {x : Except ε α} {y : α} :
    x.mapError f = .ok y ↔ x = .ok y := by
  cases x <;> simp [Except.mapError]

/-- A body that a call lets run is invoked. -/
theorem Target.invoked_of_resolve (h : t.resolve w = .ok body) : body.Invoked w := by
  cases t with
  | member i name a => exact World.invoked_of_resolve (mapError_eq_ok_iff.mp h)
  | delegate r handle name a =>
    simp only [resolve, Registry.resolve] at h
    split at h
    · cases h
    · have hfound := mapError_eq_ok_iff.mp h
      unfold Scope.resolve at hfound
      split at hfound
      · cases hfound
      · unfold Delegate.resolve at hfound
        split at hfound
        · cases hfound
        · split at hfound
          · cases hfound
          · exact World.invoked_of_resolve hfound

/-- A body that takes a course it may take, entered and left, is a part of a history. -/
theorem Chronicle.enter (invoked : body.Invoked w) (takes : body.Takes may course)
    (goes : Goes conduct level course w inner v ended)
    (deeper : course.Discreet may → ∃ events, Chronicle may w inner v events)
    {events : List Event} (next : Chronicle may v log w' events) (entry : Entry)
    (hentry : entry.body = body) :
    ∃ within, Chronicle may w (entry :: inner ++ log) w' (.entered body w :: within ++ events) := by
  have hbodies {within : List Event} (h : enteredBodies within = inner.map (·.body)) :
      enteredBodies (.entered body w :: within ++ events) =
        (entry :: inner ++ log).map (·.body) := by
    have hnext := next.bodies
    simp only [enteredBodies] at h hnext
    simp [enteredBodies, Event.body?, h, hnext, hentry]
  cases hj : body.journal? with
  | some journal =>
    simp only [Body.Takes, hj] at takes
    subst takes
    cases goes with
    | act goes =>
      cases goes
      exact ⟨[], .recorded invoked hj next.history, hbodies rfl, fun j hmem =>
        next.emptied j (by simpa using hmem)⟩
  | none =>
    simp only [Body.Takes, hj] at takes
    obtain ⟨within, hwithin⟩ := deeper takes
    refine ⟨within, .entered invoked hj hwithin.history next.history, hbodies hwithin.bodies, ?_⟩
    intro j hmem
    rcases List.mem_append.mp hmem with hmem | hmem
    · exact hwithin.emptied j (by simpa using hmem)
    · exact next.emptied j hmem

/-- A course that leaves the journals to its calls is a history, if the bodies that are entered for
it take such courses as well. -/
theorem Goes.exists_chronicle (h : Goes conduct level course w log w' ended)
    (hcourse : course.Discreet may)
    (hlog : ∀ e ∈ log, e.body.Takes may (conduct e.level e.body)) :
    ∃ events, Chronicle may w log w' events := by
  induction h with
  | finish ended => exact ⟨[], .rest _, rfl, fun j hmem => by cases hmem⟩
  | @act level change next w w' log ended goes ih =>
    obtain ⟨events, hevents⟩ := ih (hcourse.2 w) hlog
    rcases hcourse.1 with hkept | ⟨j, hj, rfl⟩
    · exact ⟨events, .changed (hkept w) hevents.history, hevents.bodies, hevents.emptied⟩
    · refine ⟨.cleared j :: events, .cleared j hevents.history, hevents.bodies, fun k hmem => ?_⟩
      rcases List.mem_cons.mp hmem with heq | hmem
      · cases heq
        exact hj
      · exact hevents.emptied k hmem
  | refused found goes ih => exact ih (hcourse _) hlog
  | @entered level t next w v w' body inner log done ended found goes rest ihgoes ihrest =>
    obtain ⟨events, hevents⟩ :=
      ihrest (hcourse _) fun e he => hlog e (List.mem_append_right _ he)
    have htakes : body.Takes may (conduct (level + 1) body) := hlog _ (List.mem_cons_self ..)
    obtain ⟨within, hwithin⟩ :=
      Chronicle.enter (t.invoked_of_resolve found) htakes goes
        (fun hdiscreet => ihgoes hdiscreet fun e he =>
          hlog e (List.mem_append_left _ (List.mem_cons_of_mem _ he))) hevents
        ⟨level + 1, body, done, body.outcome done⟩ rfl
    exact ⟨_, hwithin⟩

/-- So is a call, and the first thing that happens is that the body is entered which it lets run. -/
theorem Made.exists_chronicle {returned : Except Failure Value}
    (h : Made conduct level t w log w' returned)
    (hlog : ∀ e ∈ log, e.body.Takes may (conduct e.level e.body)) :
    ∃ events, Chronicle may w log w' events ∧
      ∀ body, t.resolve w = .ok body → ∃ within, events = .entered body w :: within := by
  cases h with
  | @refused f found =>
    refine ⟨[], ⟨.rest w, rfl, fun j hmem => by cases hmem⟩, fun body hbody => ?_⟩
    rw [found] at hbody
    cases hbody
  | @entered w' body inner done found goes =>
    have htakes : body.Takes may (conduct level body) := hlog _ (List.mem_cons_self ..)
    have hnext : Chronicle may w' [] w' [] := ⟨.rest w', rfl, fun j hmem => by cases hmem⟩
    obtain ⟨within, hwithin⟩ :=
      Chronicle.enter (t.invoked_of_resolve found) htakes goes
        (fun hdiscreet => goes.exists_chronicle hdiscreet fun e he =>
          hlog e (List.mem_cons_of_mem _ he)) hnext ⟨level, body, done, body.outcome done⟩ rfl
    rw [List.append_nil] at hwithin
    refine ⟨_, hwithin, fun body' hbody => ?_⟩
    rw [found] at hbody
    obtain rfl := Except.ok.inj hbody
    exact ⟨_, rfl⟩

end Courses

section Scripts

/-- A script that neither records nor calls leaves the journals as they are. -/
theorem World.calls_run_one {m : Method} (hcall : ∀ name, m.script ≠ .call name)
    (hrecord : ∀ j v, m.script ≠ .record j v) (i : InstanceId) (b : Binding) (w : World)
    (j : String) : (World.run 1 m i b w).1.calls j = w.calls j := by
  simp only [World.run]
  cases hs : m.script with
  | call name => exact absurd hs (hcall name)
  | record journal v => exact absurd hs (hrecord journal v)
  | assign name v => cases w.classOf? i <;> rfl
  | native n =>
    simp only [runNative]
    split <;> rfl
  | _ => rfl

/-- Scripts take courses that bodies may take and empty no journal, as deep as calls may be
nested. -/
theorem scripted_takes {depth level : Nat} (h : level < depth) (body : Body) :
    body.Takes (fun _ => False) (scripted depth level body) := by
  have hdeed (hj : body.journal? = none) (hcall : ∀ name, body.method.script ≠ .call name) :
      (Course.deed (World.run 1 body.method body.receiver body.binding)).Discreet
        fun _ => False := by
    have hrecord : ∀ j v, body.method.script ≠ .record j v := fun j v hs => by
      simp [Body.journal?, hs] at hj
    exact ⟨.inl fun w j => World.calls_run_one hcall hrecord _ _ w j, fun _ => trivial⟩
  rw [scripted, if_pos h]
  cases hj : body.journal? with
  | some journal =>
    simp only [Body.Takes, hj]
    split
    · rename_i name hs
      simp [Body.journal?, hs] at hj
    · rfl
  | none =>
    simp only [Body.Takes, hj]
    split
    · exact fun _ => trivial
    · rename_i hs
      exact hdeed hj hs

variable {conduct : Conduct} {level : Nat} {w w' : World} {log : List Entry}

/-- A body in a log ended as its course says. -/
theorem Goes.entry_goes {course : Course} {ended : Except Cause Value}
    (h : Goes conduct level course w log w' ended) {e : Entry} (he : e ∈ log) :
    ∃ v inner v', Goes conduct e.level (conduct e.level e.body) v inner v' e.ended := by
  induction h with
  | finish ended => cases he
  | act goes ih => exact ih he
  | refused found goes ih => exact ih he
  | entered found goes rest ihgoes ihrest =>
    rcases List.mem_append.mp he with he | he
    · rcases List.mem_cons.mp he with rfl | he
      · exact ⟨_, _, _, goes⟩
      · exact ihgoes he
    · exact ihrest he

/-- So did the body of a call. -/
theorem Made.entry_goes {t : Target} {returned : Except Failure Value}
    (h : Made conduct level t w log w' returned) {e : Entry} (he : e ∈ log) :
    ∃ v inner v', Goes conduct e.level (conduct e.level e.body) v inner v' e.ended := by
  cases h with
  | refused found => cases he
  | entered found goes =>
    rcases List.mem_cons.mp he with rfl | he
    · exact ⟨_, _, _, goes⟩
    · exact goes.entry_goes he

/-- Beyond the depth to which calls may be nested every script is endless. -/
theorem ended_of_beyond {depth : Nat} (h : depth ≤ level) {body : Body}
    {ended : Except Cause Value}
    (goes : Goes (scripted depth) level (scripted depth level body) w log w' ended) :
    ended = .error .endless := by
  rw [scripted, if_neg (by omega)] at goes
  cases goes with
  | act goes =>
    cases goes
    rfl

/-- A call of scripted methods is a history that empties no journal, unless scripts call each other
without end. -/
theorem Target.call_chronicle (t : Target) (w : World) :
    (∃ member c, (t.call w).2 = .error (.call (.method member c)) ∧ .endless ∈ c :: c.sources) ∨
      ∃ log events, Made (scripted w.depth) 0 t w log (t.call w).1 (t.call w).2 ∧
        Chronicle (fun _ => False) w log (t.call w).1 events ∧
        ∀ body, t.resolve w = .ok body → ∃ within, events = .entered body w :: within := by
  obtain ⟨log, made⟩ := (run_follows w.depth 0 (Nat.zero_add _)).exists_made t w
  rw [← t.call_eq] at made
  by_cases hdeep : ∃ e ∈ log, w.depth ≤ e.level
  · obtain ⟨e, he, hlevel⟩ := hdeep
    obtain ⟨v, inner, v', goes⟩ := made.entry_goes he
    have hended : e.ended = .error .endless := ended_of_beyond hlevel goes
    obtain ⟨body, c, -, hreturned, hmem⟩ :=
      made.account.handedOn (scripted_handsOn w.depth) e he _ hended
    exact .inl ⟨_, c, hreturned, hmem⟩
  · have htakes : ∀ e ∈ log, e.body.Takes (fun _ => False) (scripted w.depth e.level e.body) :=
      fun e he => scripted_takes (Nat.lt_of_not_le fun hle => hdeep ⟨e, he, hle⟩) e.body
    obtain ⟨events, hevents, hfirst⟩ := made.exists_chronicle htakes
    exact .inr ⟨log, events, made, hevents, hfirst⟩

end Scripts

section Delegates

variable {w : World}

/-- Where its name means the method itself for the active instance, a delegate lets the same body
run as a direct call with the keywords renamed, or neither lets one run. -/
theorem Delegate.resolve_eq_ok_iff {className name : String} {m : Method} {i : InstanceId}
    {c : ClassId} (hi : w.classOf? i = some c) (hn : w.hierarchy.lookup? c name = some (.method m))
    (a : Arguments) (body : Body) : (ofMethod className name m).resolve w (some i) a = .ok body ↔
      w.resolve i name (m.renames.renamed a) = .ok body := by
  cases hm : m.renames.isEmpty with
  | true =>
    have hrules : m.renames.rules = [] := List.isEmpty_iff.mp hm
    have hrenamed : m.renames.renamed a = a := by
      rw [Renaming.renamed, Renaming.keywords_of_unused (by simp [hrules])]
    rw [resolve_ofMethod hm hi hn, hrenamed]
  | false =>
    rw [resolve_ofMethod_of_renames hm, World.resolve_of_method hi hn]
    cases hadapt : m.renames.adapt m.signature a with
    | ok handed => rfl
    | error e =>
      -- Renamed arguments that bind leave no required parameter out.
      cases hbind : m.signature.bind (m.renames.renamed a) with
      | error e' => simp [Method.resolve, hbind]
      | ok b =>
        rw [Renaming.adapt_of_bind hbind] at hadapt
        cases hadapt

/-- Calls that let the same body run, or none, leave the same world behind. -/
theorem Target.world_callVia_congr {t t' : Target}
    (h : ∀ body, t.resolve w = .ok body ↔ t'.resolve w = .ok body) (run : Runner) :
    (t.callVia run w).1 = (t'.callVia run w).1 := by
  rw [t.callVia_eq, t'.callVia_eq]
  cases ht : t.resolve w with
  | ok body => rw [(h body).mp ht]
  | error f =>
    cases ht' : t'.resolve w with
    | ok body =>
      rw [(h body).mpr ht'] at ht
      cases ht
    | error f' => rfl

/-- So a call through a registry leaves the world behind that the direct call does. -/
theorem Target.world_delegate_eq {r : Registry} {h : ScopeHandle} {s : Scope}
    {name key className : String} {m : Method} {i : InstanceId} {c : ClassId}
    (hs : r.scope? h = some s) (hd : s.delegate? name = some (.ofMethod className key m))
    (hactive : s.active = some i) (hi : w.classOf? i = some c)
    (hn : w.hierarchy.lookup? c key = some (.method m)) (a : Arguments) (run : Runner) :
    ((Target.delegate r h name a).callVia run w).1 =
      ((Target.member i key (m.renames.renamed a)).callVia run w).1 := by
  refine Target.world_callVia_congr (fun body => ?_) run
  simp only [resolve, Registry.resolve, hs, Scope.resolve, hd, hactive, mapError_eq_ok_iff]
  exact Delegate.resolve_eq_ok_iff hi hn a body

/-- A failure that keeps every body from running keeps the world as it was. -/
theorem Target.world_of_refusal {t : Target} {run : Runner} {f : Failure}
    (h : (t.callVia run w).2 = .error f) (hf : f.Refusal) : (t.callVia run w).1 = w := by
  rw [t.callVia_eq] at h ⊢
  cases ht : t.resolve w with
  | error f' => rfl
  | ok body =>
    rw [ht] at h
    -- A body that ran fails as its method, which is no refusal.
    simp only [Body.outcome] at h
    cases hended : (run body.method body.receiver body.binding w).2 with
    | ok v =>
      rw [hended] at h
      cases h
    | error cause =>
      rw [hended] at h
      obtain rfl := Except.error.inj h
      cases hf

end Delegates

/-- A journal is faithful. After every history of a world it shows the invocations of its methods
since it was emptied last, or since it was empty at the beginning: one entry each, in the order of
their execution, with nothing of what their bodies received left out. Courses of arbitrary bodies
are histories that enter the bodies of their logs, if only those that record write into journals;
and so are calls of scripted methods, if they end. A refused call adds nothing. A call through a
registry adds what the direct call adds: the world it leaves behind is the same, whatever bodies
do. -/
theorem journal_faithful (journal : String) :
    (∀ w events w', Proceeds w events w' →
      (∀ before after, events = before ++ .cleared journal :: after →
        .cleared journal ∉ after → w'.Logs journal (invocations journal after)) ∧
      (w.calls journal = [] → .cleared journal ∉ events →
        w'.Logs journal (invocations journal events))) ∧
    (∀ may conduct level course w log w' ended, Goes conduct level course w log w' ended →
      course.Discreet may → (∀ e ∈ log, e.body.Takes may (conduct e.level e.body)) →
        ∃ events, Chronicle may w log w' events) ∧
    (∀ t w,
      (∃ member c, (Target.call w t).2 = .error (.call (.method member c)) ∧
        .endless ∈ c :: c.sources) ∨
      ∃ log events, Made (scripted w.depth) 0 t w log (Target.call w t).1 (Target.call w t).2 ∧
        Chronicle (fun _ => False) w log (Target.call w t).1 events ∧
        ∀ body, t.resolve w = .ok body → ∃ within, events = .entered body w :: within) ∧
    (∀ t run w f, (Target.callVia run w t).2 = .error f → f.Refusal →
      (Target.callVia run w t).1 = w) ∧
    ∀ (r : Registry) (h : ScopeHandle) (s : Scope) (name key className : String) (m : Method)
      (i : InstanceId) (c : ClassId) (w : World), r.scope? h = some s →
      s.delegate? name = some (.ofMethod className key m) → s.active = some i →
      w.classOf? i = some c → w.hierarchy.lookup? c key = some (.method m) → ∀ a run,
        ((Target.delegate r h name a).callVia run w).1 =
          ((Target.member i key (m.renames.renamed a)).callVia run w).1 := by
  refine ⟨?shown, ?courses, ?scripts, ?refused, ?direct⟩
  case shown => exact fun w events w' h => h.logs
  case courses => exact fun _ _ _ _ _ _ _ _ goes => goes.exists_chronicle
  case scripts => exact fun t w => t.call_chronicle w
  case refused => exact fun t run w f => Target.world_of_refusal
  case direct =>
    exact fun r h s name key className m i c w hs hd hactive hi hn a run =>
      Target.world_delegate_eq hs hd hactive hi hn a run

/-- A method that records its calls. -/
def noteMethod : Method where
  signature := ⟨"note", [⟨"text", none⟩, ⟨"weight", some (.int 1)⟩], none, none, by decide⟩
  script := .record "log" .none

/-- The body of that method with a text. -/
def noted (text : String) : Body where
  method := noteMethod
  receiver := 0
  binding := ⟨[("text", .str text), ("weight", .int 1)], [], ∅⟩

/-- The world of one instance, whose class inherits the method. -/
def notedWorld : World where
  hierarchy := ⟨[⟨"Desk", [], [], .ofEntries [("note", .method noteMethod)]⟩,
    ⟨"Counter", [0], [0], ∅⟩]⟩
  instances := [⟨1, ∅, none⟩]
  journals := ∅

/-- The world after a call and after its journal was emptied. -/
def emptiedWorld : World :=
  ((Target.member 0 "note" ⟨[.str "first"], ∅⟩).call notedWorld).1.clear "log"

/-- Of two calls with the journal emptied between them it shows the second one, under the name of
the class that inherits the method. -/
theorem journal_faithful_inherited :
    ((Target.member 0 "note" ⟨[.str "second"], ∅⟩).call emptiedWorld).1.Logs "log"
        [(noted "second", emptiedWorld)] ∧
      emptiedWorld.className 0 = "Counter" := by
  have hfirst : (noted "first").Invoked notedWorld :=
    ⟨⟨⟨[.str "first"], ∅⟩, by decide +kernel⟩, ⟨1, rfl⟩⟩
  have hsecond : (noted "second").Invoked emptiedWorld :=
    ⟨⟨⟨[.str "second"], ∅⟩, by decide +kernel⟩, ⟨1, rfl⟩⟩
  have first : Proceeds notedWorld [.entered (noted "first") notedWorld]
      ((Target.member 0 "note" ⟨[.str "first"], ∅⟩).call notedWorld).1 :=
    .recorded hfirst rfl (.rest _)
  have second : Proceeds emptiedWorld [.entered (noted "second") emptiedWorld]
      ((Target.member 0 "note" ⟨[.str "second"], ∅⟩).call emptiedWorld).1 :=
    .recorded hsecond rfl (.rest _)
  have history := first.append (.cleared "log" second)
  obtain ⟨hshown, -⟩ := (journal_faithful "log").1 _ _ _ history
  exact ⟨hshown [.entered (noted "first") notedWorld] _ rfl (by simp), rfl⟩

end Delegation
