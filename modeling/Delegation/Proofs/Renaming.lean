import Delegation.Proofs.Binding
import Delegation.Proofs.Resolution
/-!
# Calls with renamed parameters

A delegate of a method with renamed parameters looks at the required
parameters by a walk of its own: a parameter that a keyword names is passed
over, and any other takes the next value given by position. Binding walks
differently, but where it succeeds no keyword names a parameter filled by
position, so both walks use up the same values and the first one finds nothing
missing.
-/

namespace Delegation

namespace Renaming

variable {r : Renaming}

/-- The arguments of a call with its keywords renamed. -/
def renamed (r : Renaming) (a : Arguments) : Arguments := ⟨a.positional, r.keywords a.keywords⟩

/-- Keywords that no rule takes stay as they are. -/
theorem keywords_of_unused {given : NameMap Value} (h : ∀ rule ∈ r.rules, rule.1 ∉ given) :
    r.keywords given = given := by
  have hrules : ∀ rules : List (String × String), (∀ rule ∈ rules, rule.1 ∉ given) →
      rules.foldl Progress.apply ⟨given, ∅⟩ = ⟨given, ∅⟩ := by
    intro rules
    induction rules with
    | nil => exact fun _ => rfl
    | cons rule rules ih =>
      intro hrule
      have hnone : given[rule.1]? = none :=
        Std.ExtTreeMap.getElem?_eq_none (hrule rule List.mem_cons_self)
      have happly : Progress.apply ⟨given, ∅⟩ rule = ⟨given, ∅⟩ := by
        simp only [Progress.apply, hnone]
      rw [List.foldl_cons, happly]
      exact ih fun rule' hr => hrule rule' (List.mem_cons_of_mem _ hr)
  have hkeywords : r.keywords given = empty.keywords given := by
    simp only [keywords, hrules r.rules h]
    rfl
  rw [hkeywords, keywords_empty]

/-- An adapted call is the call with its keywords renamed. -/
theorem adapt_eq_ok {s : Signature} {a handed : Arguments} (h : r.adapt s a = .ok handed) :
    handed = r.renamed a := by
  unfold adapt at h
  cases hc : cover (r.keywords a.keywords) s.required a.positional with
  | error e => simp [hc, Except.map] at h
  | ok positional =>
    simp only [hc, Except.map, Except.ok.injEq] at h
    rw [← h, cover_eq_ok hc]
    rfl

/-- Where every parameter is filled and no keyword names one filled by position, no required
parameter is missing. -/
theorem cover_of_fill {function : String} {keywords : NameMap Value} {ps : List Parameter}
    {vs : List Value} {bound : List (String × Value)}
    (h : Signature.fill function keywords ps vs = .ok bound)
    (hfree : ∀ p ∈ ps.take vs.length, p.name ∉ keywords) :
    cover keywords (ps.takeWhile (·.default.isNone)) vs = .ok vs := by
  induction ps generalizing vs bound with
  | nil => rfl
  | cons p ps ih =>
    cases hdefault : p.default with
    | some v =>
      rw [List.takeWhile_cons_of_neg (by simp [hdefault])]
      rfl
    | none =>
      rw [List.takeWhile_cons_of_pos (by simp [hdefault])]
      -- both walks fill it by position while values are left, and by its keyword afterwards
      cases vs with
      | cons v vs =>
        have hp : keywords.contains p.name = false := by
          have hp := hfree p List.mem_cons_self
          rwa [← Std.ExtTreeMap.contains_iff_mem, Bool.not_eq_true] at hp
        rw [Signature.fill] at h
        cases hf : Signature.fill function keywords ps vs with
        | error e => simp [hf, Except.map] at h
        | ok rest =>
          have hrest := ih hf fun q hq => hfree q (List.mem_cons_of_mem _ hq)
          simp [cover, hp, hrest, Except.map]
      | nil =>
        rw [Signature.fill, hdefault, Option.or_none] at h
        cases hk : keywords[p.name]? with
        | none => simp [hk] at h
        | some v =>
          have hp : keywords.contains p.name = true := by
            rw [Std.ExtTreeMap.contains_eq_isSome_getElem?, hk]
            rfl
          simp only [hk] at h
          cases hf : Signature.fill function keywords ps [] with
          | error e => simp [hf, Except.map] at h
          | ok rest =>
            rw [cover, if_pos hp]
            exact ih hf (by simp)

/-- Where the renamed arguments bind, no required parameter is missing. -/
theorem adapt_of_bind {s : Signature} {a : Arguments} {b : Binding}
    (h : s.bind (r.renamed a) = .ok b) : r.adapt s a = .ok (r.renamed a) := by
  have hbinds := Signature.bind_eq_ok_iff.1 h
  have hfree : ∀ p ∈ s.params.take a.positional.length, p.name ∉ r.keywords a.keywords := by
    intro p hp hk
    have hfault := (Signature.keywordFault?_eq_none_iff.1 (hbinds.keywords p.name hk)).1
    apply hfault
    rw [Signature.filledNames, Signature.paramNames, ← List.map_take]
    exact List.mem_map_of_mem hp
  have hcover : cover (r.keywords a.keywords) s.required a.positional = .ok a.positional :=
    cover_of_fill hbinds.params hfree
  simp only [adapt, hcover, Except.map, renamed]

end Renaming

namespace Delegate

variable {className name : String} {m : Method}

/-- With renamed parameters the keywords are renamed and the required parameters looked at. -/
theorem prepare_ofMethod_of_renames (hm : m.renames.isEmpty = false) (a : Arguments) :
    (ofMethod className name m).prepare a =
      (m.renames.adapt m.signature a).mapError .uncovered := by
  have hrelay : (ofMethod className name m).relay = .passThrough := by
    simp [ofMethod, hm]
  have hrenames : (ofMethod className name m).renames = m.renames := rfl
  have hsignature : (ofMethod className name m).signature = m.signature := rfl
  simp [prepare, hrelay, hrenames, hsignature, hm]

/-- A call on an active instance is a direct call with the keywords renamed, unless a required
parameter is missing. -/
theorem resolve_ofMethod_of_renames (hm : m.renames.isEmpty = false) (w : World) (i : InstanceId)
    (a : Arguments) : (ofMethod className name m).resolve w (some i) a =
      match m.renames.adapt m.signature a with
      | .error e => .error (.uncovered e)
      | .ok _ => w.resolve i name (m.renames.renamed a) := by
  unfold resolve
  rw [prepare_ofMethod_of_renames hm]
  cases hadapt : m.renames.adapt m.signature a with
  | error e => rfl
  | ok handed =>
    rw [Renaming.adapt_eq_ok hadapt]
    rfl

/-- Where its name means the method itself for an instance, a delegate of a method with renamed
parameters accepts exactly the direct calls with the keywords renamed. If they bind, the same body
runs on the same binding, with the same effects and the same end. If they do not, no body runs: a
required parameter that the walk finds missing is reported, and else what keeps them from binding.
A direct call that binds and gives no old name by keyword is the same call of the delegate. -/
theorem callVia_renamed (className : String) (hm : m.renames.isEmpty = false) {w : World}
    {i : InstanceId} {c : ClassId} (hi : w.classOf? i = some c)
    (hn : w.hierarchy.lookup? c name = some (.method m)) (a : Arguments) :
    (∀ b, m.signature.bind (m.renames.renamed a) = .ok b →
      m.renames.adapt m.signature a = .ok (m.renames.renamed a) ∧
      w.resolve i name (m.renames.renamed a) = .ok ⟨m, i, b⟩ ∧
      (ofMethod className name m).resolve w (some i) a = .ok ⟨m, i, b⟩ ∧
      ∀ run, (ofMethod className name m).callVia run w (some i) a =
        w.callVia run i name (m.renames.renamed a)) ∧
    (∀ e, m.signature.bind (m.renames.renamed a) = .error e →
      (∀ f, m.renames.adapt m.signature a = .error f →
        (ofMethod className name m).resolve w (some i) a = .error (.uncovered f) ∧
        ∀ run, (ofMethod className name m).callVia run w (some i) a =
          (w, .error (.uncovered f))) ∧
      ∀ handed, m.renames.adapt m.signature a = .ok handed →
        (ofMethod className name m).resolve w (some i) a = .error (.binding e) ∧
        ∀ run, (ofMethod className name m).callVia run w (some i) a =
          (w, .error (.binding e))) ∧
    ((∀ rule ∈ m.renames.rules, rule.1 ∉ a.keywords) → ∀ b, m.signature.bind a = .ok b →
      (ofMethod className name m).resolve w (some i) a = w.resolve i name a ∧
      ∀ run, (ofMethod className name m).callVia run w (some i) a = w.callVia run i name a) := by
  have hdirect : w.resolve i name (m.renames.renamed a) = m.resolve i (m.renames.renamed a) :=
    World.resolve_of_method hi hn _
  have hresolve : (ofMethod className name m).resolve w (some i) a = _ :=
    resolve_ofMethod_of_renames hm w i a
  refine ⟨?bound, ?unbound, ?unused⟩
  case bound =>
    intro b hb
    have hadapt := Renaming.adapt_of_bind hb
    have hbody : w.resolve i name (m.renames.renamed a) = .ok ⟨m, i, b⟩ := by
      simp only [hdirect, Method.resolve, hb]
    rw [hadapt] at hresolve
    refine ⟨hadapt, hbody, hresolve.trans hbody, fun run => ?_⟩
    rw [callVia_of_resolve hresolve, World.callVia_eq]
  case unbound =>
    intro e he
    constructor
    · intro f hf
      rw [hf] at hresolve
      exact ⟨hresolve, callVia_of_resolve hresolve⟩
    · intro handed hhanded
      have hbody : w.resolve i name (m.renames.renamed a) = .error (.binding e) := by
        simp only [hdirect, Method.resolve, he]
      rw [hhanded] at hresolve
      exact ⟨hresolve.trans hbody, callVia_of_resolve (hresolve.trans hbody)⟩
  case unused =>
    intro hunused b hb
    have hsame : m.renames.renamed a = a := by
      simp only [Renaming.renamed, Renaming.keywords_of_unused hunused]
    have hadapt : m.renames.adapt m.signature a = .ok (m.renames.renamed a) :=
      Renaming.adapt_of_bind (hsame.symm ▸ hb)
    rw [hadapt, hsame] at hresolve
    refine ⟨hresolve, fun run => ?_⟩
    rw [callVia_of_resolve hresolve, World.callVia_eq]

/-- A method one parameter of which was renamed. -/
def renamedMethod : Method where
  signature := ⟨"fetch", [⟨"url", none⟩, ⟨"retries", some (.int 0)⟩], none, none, by decide⟩
  script := .describe
  renames := ⟨[("address", "url")]⟩

/-- A world with that method and an instance to call it on. -/
def renamedWorld : World where
  hierarchy := ⟨[⟨"Client", [], [], .ofEntries [("fetch", .method renamedMethod)]⟩]⟩
  instances := [⟨0, ∅, none⟩]
  journals := ∅

/-- A call that gives the parameter under its old name. -/
theorem callVia_renamed_sample :
    renamedMethod.signature.bind
        (renamedMethod.renames.renamed ⟨[], .ofEntries [("address", .str "x")]⟩) =
      .ok ⟨[("url", .str "x"), ("retries", .int 0)], [], ∅⟩ ∧
    ∀ run, (ofMethod "Client" "fetch" renamedMethod).callVia run renamedWorld (some 0)
        ⟨[], .ofEntries [("address", .str "x")]⟩ =
      renamedWorld.callVia run 0 "fetch"
        (renamedMethod.renames.renamed ⟨[], .ofEntries [("address", .str "x")]⟩) := by
  have hbind : renamedMethod.signature.bind
      (renamedMethod.renames.renamed ⟨[], .ofEntries [("address", .str "x")]⟩) =
      .ok ⟨[("url", .str "x"), ("retries", .int 0)], [], ∅⟩ := by
    decide +kernel
  have hn : renamedWorld.hierarchy.lookup? 0 "fetch" = some (.method renamedMethod) := rfl
  have hi : renamedWorld.classOf? 0 = some 0 := rfl
  have h := (callVia_renamed "Client" rfl hi hn ⟨[], .ofEntries [("address", .str "x")]⟩).1 _ hbind
  exact ⟨hbind, h.2.2.2⟩

end Delegate

end Delegation
