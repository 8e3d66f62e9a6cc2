import Delegation.Exposure.Expansion
import Delegation.Proofs.HelperAttributes
/-!
# What is captured of functions

What an interface that was captured has to do with the function it was captured
of, said of the function alone. The interfaces of a block's functions are those
that `Source.Function.Exposes` describes, one for each function with a receiver,
in order, and a block is expanded exactly if there are such interfaces.
-/

namespace Delegation

open Source

section Lists

variable {α β : Type} {R : α → β → Prop}

/-- Related items can be found for all of a list if for each of it. -/
theorem exists_forall₂_iff {xs : List α} :
    (∃ ys, List.Forall₂ R xs ys) ↔ ∀ x ∈ xs, ∃ y, R x y := by
  induction xs with
  | nil => simp
  | cons x xs ih =>
    simp only [List.forall₂_cons_left_iff, List.forall_mem_cons, ← ih]
    constructor
    · rintro ⟨_, y, ys, hy, hys, rfl⟩
      exact ⟨⟨y, hy⟩, ys, hys⟩
    · rintro ⟨⟨y, hy⟩, ys, hys⟩
      exact ⟨_, y, ys, hy, hys, rfl⟩

/-- A property that related items share is met by none of the one list if by none of the other. -/
theorem forall_not_iff_of_forall₂ {p : α → Prop} {q : β → Prop} (hpq : ∀ x y, R x y → (p x ↔ q y))
    {xs : List α} {ys : List β} (h : List.Forall₂ R xs ys) :
    (∀ x ∈ xs, ¬ p x) ↔ ∀ y ∈ ys, ¬ q y := by
  induction h with
  | nil => simp
  | cons hxy _ ih => rw [List.forall_mem_cons, List.forall_mem_cons, ih, hpq _ _ hxy]

/-- A property that related items share is met by no two of the one list if by no two of the
other. -/
theorem pairwise_not_both_iff {p : α → Prop} {q : β → Prop} (hpq : ∀ x y, R x y → (p x ↔ q y))
    {xs : List α} {ys : List β} (h : List.Forall₂ R xs ys) :
    xs.Pairwise (fun x x' => p x → ¬ p x') ↔ ys.Pairwise fun y y' => q y → ¬ q y' := by
  induction h with
  | nil => simp
  | @cons x y xs ys hxy hrest ih =>
    have hothers := forall_not_iff_of_forall₂ hpq hrest
    simp only [List.pairwise_cons, ih, hpq x y hxy]
    by_cases hy : q y
    · simp only [hy, forall_const, hothers]
    · simp only [hy, false_implies, implies_true]

end Lists

namespace Role

variable {δ : Type}

/-- Whether a parameter collects values given by position. -/
def isVarargs : Role δ → Bool
  | varargs => true
  | _ => false

/-- Whether a parameter collects keywords. -/
def isVarkw : Role δ → Bool
  | varkw => true
  | _ => false

/-- One role collects values given by position. -/
@[simp] theorem isVarargs_iff (r : Role δ) : r.isVarargs = true ↔ r = .varargs := by
  cases r <;> simp [isVarargs]

/-- One role collects keywords. -/
@[simp] theorem isVarkw_iff (r : Role δ) : r.isVarkw = true ↔ r = .varkw := by
  cases r <;> simp [isVarkw]

end Role

/-- What a captured parameter has of the one that it was captured of. -/
structure Source.Param.Gives (expression : ExpressionReader) (p : Param) (c : CapturedParam) :
    Prop where
  /-- The identifier that the pattern is. -/
  pattern : Capture.IdentifierPattern p.pattern c.ident
  /-- The type. -/
  type : c.type = p.type
  /-- The type is no reference. -/
  owned : ¬ Capture.IsReference p.type
  /-- The role that the attributes give. -/
  role : Capture.GivesRole expression p.attributes c.role

/-- No two parameters have a given role. -/
def SoleRole (r : Role (Option (List Tree))) (cs : List CapturedParam) : Prop :=
  cs.Pairwise fun c d => c.role = r → ¬ d.role = r

/-- What the captured interface has of a function that is exposed. -/
structure Source.Function.Exposes (expression : ExpressionReader) (f : Function)
    (m : CapturedMethod) : Prop where
  /-- The receiver is borrowed, and not to be changed. -/
  receiver : ∃ r, f.receiver = some r ∧ r.reference.isSome ∧ r.mutable = false
  /-- The function is not asynchronous. -/
  synchronous : f.isAsync = false
  /-- It has no generic parameters. -/
  plain : f.generics.entries = []
  /-- Its identifier. -/
  ident : m.ident = f.name
  /-- Its parameters in order. -/
  params : List.Forall₂ (Param.Gives expression) f.params m.params
  /-- No two of them collect values given by position. -/
  varargs : SoleRole .varargs m.params
  /-- No two of them collect keywords. -/
  varkw : SoleRole .varkw m.params
  /-- The old names that its attributes give. -/
  renames : Capture.GivesRenames f.attributes m.renames
  /-- Its documentation. -/
  doc : m.doc = Attribute.documentation f.attributes

variable {expression : ExpressionReader}

namespace Capture

/-- A parameter is captured with what it gives. -/
theorem param_eq_ok {p : Param} {c : CapturedParam} :
    param expression p = .ok c ↔ p.Gives expression c := by
  constructor
  · intro h
    unfold param at h
    split at h
    · cases h
    · rename_i ident hident
      split_ifs at h with hreference
      obtain ⟨r, hrole, rfl⟩ := except_map_eq_ok.1 h
      exact ⟨identifier?_eq_some.1 hident, rfl, fun href => hreference (isReference_iff.2 href),
        role_eq_ok.1 hrole⟩
  · rintro ⟨hpattern, htype, howned, hrole⟩
    have hreference : ¬ isReference p.type = true := fun h => howned (isReference_iff.1 h)
    rw [param, identifier?_eq_some.2 hpattern]
    dsimp only
    rw [if_neg hreference, role_eq_ok.2 hrole, ← htype]
    rfl

/-- No two of a list have a role, and none of them if it was there before, exactly if this holds of
what comes after the first one, counting it with what was before, and the first one is allowed. -/
theorem soleRole_cons {r : Role (Option (List Tree))} {c : CapturedParam} {cs : List CapturedParam}
    {before : Prop} :
    (SoleRole r (c :: cs) ∧ (before → ∀ d ∈ c :: cs, d.role ≠ r)) ↔
      (c.role = r → ¬ before) ∧
        SoleRole r cs ∧ (before ∨ c.role = r → ∀ d ∈ cs, d.role ≠ r) := by
  unfold SoleRole
  rw [List.pairwise_cons, List.forall_mem_cons]
  constructor
  · rintro ⟨⟨hfirst, hrest⟩, hbefore⟩
    refine ⟨fun hc hb => (hbefore hb).1 hc, hrest, ?_⟩
    rintro (hb | hc)
    · exact (hbefore hb).2
    · exact fun d hd => hfirst d hd hc
  · rintro ⟨hallowed, hrest, hnone⟩
    refine ⟨⟨fun d hd hc => hnone (.inr hc) d hd, hrest⟩, fun hb => ?_⟩
    exact ⟨fun hc => hallowed hc hb, hnone (.inl hb)⟩

/-- Parameters are captured one by one; the flags say what was collected before. -/
theorem params_cons_eq_ok {varargs varkw : Bool} {p : Param} {ps : List Param}
    {cs : List CapturedParam} :
    params expression varargs varkw (p :: ps) = .ok cs ↔
      ∃ c rest, cs = c :: rest ∧ p.Gives expression c ∧
        (c.role = .varargs → ¬ varargs = true) ∧ (c.role = .varkw → ¬ varkw = true) ∧
        params expression (varargs || c.role.isVarargs) (varkw || c.role.isVarkw) ps =
          .ok rest := by
  rw [params]
  simp only [← param_eq_ok]
  cases hparam : param expression p with
  | error e => simp [bind, Except.bind]
  | ok c =>
    simp only [bind, Except.bind, Except.ok.injEq, existsAndEq, true_and]
    cases hrole : c.role with
    | varargs => cases varargs <;> simp [except_map_eq_ok, Role.isVarargs, Role.isVarkw, and_comm]
    | varkw => cases varkw <;> simp [except_map_eq_ok, Role.isVarargs, Role.isVarkw, and_comm]
    | _ => simp [except_map_eq_ok, Role.isVarargs, Role.isVarkw, and_comm]

/-- Parameters are captured if each of them is, and no two collect the same, nor one that was
collected before. -/
theorem params_eq_ok {varargs varkw : Bool} {ps : List Param} {cs : List CapturedParam} :
    params expression varargs varkw ps = .ok cs ↔ List.Forall₂ (Param.Gives expression) ps cs ∧
      (SoleRole .varargs cs ∧ (varargs = true → ∀ c ∈ cs, c.role ≠ .varargs)) ∧
      SoleRole .varkw cs ∧ (varkw = true → ∀ c ∈ cs, c.role ≠ .varkw) := by
  induction ps generalizing varargs varkw cs with
  | nil =>
    cases cs with
    | nil => simp [params, SoleRole]
    | cons c cs => simp [params]
  | cons p ps ih =>
    rw [params_cons_eq_ok]
    constructor
    · rintro ⟨c, rest, rfl, hp, hvarargs, hvarkw, hrest⟩
      obtain ⟨hps, hsoleArgs, hsoleKw⟩ := ih.1 hrest
      rw [Bool.or_eq_true, Role.isVarargs_iff] at hsoleArgs
      rw [Bool.or_eq_true, Role.isVarkw_iff] at hsoleKw
      exact ⟨.cons hp hps, soleRole_cons.2 ⟨hvarargs, hsoleArgs⟩,
        soleRole_cons.2 ⟨hvarkw, hsoleKw⟩⟩
    · rintro ⟨hps, hsoleArgs, hsoleKw⟩
      obtain ⟨c, rest, hp, hrest, rfl⟩ := List.forall₂_cons_left_iff.1 hps
      obtain ⟨hvarargs, hsoleArgs⟩ := soleRole_cons.1 hsoleArgs
      obtain ⟨hvarkw, hsoleKw⟩ := soleRole_cons.1 hsoleKw
      refine ⟨c, rest, rfl, hp, hvarargs, hvarkw, ih.2 ⟨hrest, ?_, ?_⟩⟩
      · rwa [Bool.or_eq_true, Role.isVarargs_iff]
      · rwa [Bool.or_eq_true, Role.isVarkw_iff]

/-- Nothing is captured of a function without a receiver. -/
theorem function?_of_none {f : Function} (h : f.receiver = none) :
    function? expression f = .ok none := by
  rw [function?, h]

/-- An interface is captured of a function with a receiver if the function exposes it. -/
theorem function?_of_some {f : Function} {found : Option CapturedMethod}
    (hreceiver : f.receiver.isSome = true) :
    function? expression f = .ok found ↔ ∃ m, found = some m ∧ f.Exposes expression m := by
  obtain ⟨r, hr⟩ := Option.isSome_iff_exists.1 hreceiver
  constructor
  · intro h
    unfold function? at h
    rw [hr] at h
    dsimp only at h
    split_ifs at h with hborrowed hasync hgeneric
    have hreference : r.reference.isSome = true ∧ r.mutable = false := by
      simpa [Option.isSome_iff_ne_none] using hborrowed
    obtain ⟨names, hrenames, h⟩ := except_bind_eq_ok.1 h
    obtain ⟨cs, hparams, h⟩ := except_bind_eq_ok.1 h
    cases h
    obtain ⟨hgives, ⟨hvarargs, -⟩, hvarkw, -⟩ := params_eq_ok.1 hparams
    exact ⟨_, rfl, {
      receiver := ⟨r, hr, hreference⟩
      synchronous := by simpa using hasync
      plain := by simpa using hgeneric
      ident := rfl
      params := hgives
      varargs := hvarargs
      varkw := hvarkw
      renames := renames_eq_ok.1 hrenames
      doc := rfl }⟩
  · rintro ⟨m, rfl, hm⟩
    obtain ⟨r', hr', hreference, hmutable⟩ := hm.receiver
    have hparams : params expression false false f.params = .ok m.params :=
      params_eq_ok.2 ⟨hm.params, ⟨hm.varargs, by simp⟩, hm.varkw, by simp⟩
    unfold function?
    rw [hr']
    dsimp only
    rw [if_neg (by simp [hmutable, Option.isSome_iff_ne_none.1 hreference]),
      if_neg (by simp [hm.synchronous]), if_neg (by simp [hm.plain]),
      renames_eq_ok.2 hm.renames, hparams, ← hm.ident, ← hm.doc]
    rfl

/-- The functions with a receiver, in order, expose the captured interfaces. -/
theorem functions_eq_ok {fs : List Function} {ms : List CapturedMethod} :
    functions expression fs = .ok ms ↔
      List.Forall₂ (Function.Exposes expression) (fs.filter (·.receiver.isSome)) ms := by
  induction fs generalizing ms with
  | nil => cases ms <;> simp [functions]
  | cons f fs ih =>
    rw [functions, except_bind_eq_ok]
    cases hreceiver : f.receiver.isSome with
    | false =>
      have hnone : f.receiver = none := by simpa using hreceiver
      rw [function?_of_none hnone, List.filter_cons_of_neg (by simp [hreceiver]), ← ih]
      simp [except_bind_eq_ok, pure, Except.pure]
    | true =>
      rw [List.filter_cons_of_pos (by simpa using hreceiver), List.forall₂_cons_left_iff]
      constructor
      · rintro ⟨found, hf, h⟩
        obtain ⟨rest, hrest, h⟩ := except_bind_eq_ok.1 h
        cases h
        obtain ⟨m, rfl, hm⟩ := (function?_of_some hreceiver).1 hf
        exact ⟨m, rest, hm, ih.1 hrest, rfl⟩
      · rintro ⟨m, rest, hm, hrest, rfl⟩
        refine ⟨some m, (function?_of_some hreceiver).2 ⟨m, rfl, hm⟩, ?_⟩
        rw [ih.2 hrest]
        rfl

end Capture

namespace Expansion

/-- A block is expanded if it implements no trait, there is a name for its class, and its functions
with a receiver are exposed. -/
theorem ofBlock_eq_ok {name : Option String} {b : ImplBlock} {x : Expansion} :
    ofBlock expression name b = .ok x ↔ b.trait? = none ∧
      name.or (typeName? b.type) = some x.generated.name ∧
      List.Forall₂ (Function.Exposes expression) (b.functions.filter (·.receiver.isSome))
        x.generated.methods ∧
      x.block = b.withoutHelpers ∧ x.generated.generics = b.generics ∧
      x.generated.type = b.type ∧ x.generated.conditions = b.conditions := by
  constructor
  · intro h
    unfold ofBlock at h
    split_ifs at h with htrait
    split at h
    · cases h
    · rename_i given hname
      obtain ⟨methods, hfunctions, rfl⟩ := except_map_eq_ok.1 h
      exact ⟨by simpa using htrait, hname, Capture.functions_eq_ok.1 hfunctions, rfl, rfl, rfl, rfl⟩
  · obtain ⟨block, given, generics, type, conditions, methods⟩ := x
    rintro ⟨htrait, hname, hmethods, rfl, rfl, rfl, rfl⟩
    rw [ofBlock, if_neg (by simp [htrait]), hname]
    dsimp only
    rw [Capture.functions_eq_ok.2 hmethods]
    rfl

end Expansion

namespace Source

/-- Items are read one after the other. -/
theorem BlockItem.readAll_cons {ts rest : List Tree} {item : BlockItem} (hts : ts ≠ [])
    (h : read ts = (item, rest)) (hshorter : rest.length < ts.length) :
    readAll ts = item :: readAll rest := by
  rw [readAll, if_neg (by simpa using hts), h]
  exact if_pos hshorter

/-- Reads an expression that is a literal. The sample blocks have no other default. -/
def literalExpression : ExpressionReader
  | .literal text :: rest => .ok ([.literal text], rest)
  | ts => .error (SyntaxFault.expecting ts.isEmpty "an expression")

/-- A function that is exposed, with a parameter that callers must give, one with a default, and one
of either kind that collects what is left. -/
def executeFunction : Function where
  attributes := [⟨false, [.word "doc", .alone '=', .literal "\" Runs a statement.\""]⟩,
    ⟨false, [.word "legacy_names",
      .group .paren [.word "query", .alone '=', .literal "\"sql\""]]⟩]
  qualifiers := [.word "pub"]
  name := "execute"
  generics := ⟨[], false⟩
  receiver := some ⟨[], some [], false, none, fun _ => rfl⟩
  params := [⟨[], [.word "sql"], [.word "String"]⟩,
    ⟨[⟨false, [.word "arg", .group .paren [.word "default", .alone '=', .literal "100"]]⟩],
      [.word "rows"], [.word "i64"]⟩,
    ⟨[⟨false, [.word "arg", .group .paren [.word "varargs"]]⟩], [.word "multiparams"],
      [.word "Vec", .alone '<', .word "Value", .alone '>']⟩,
    ⟨[⟨false, [.word "arg", .group .paren [.word "varkw"]]⟩], [.word "params"],
      [.word "Kwargs"]⟩]
  variadic := none
  trailing := false
  output := [.mark '-' true, .alone '>', .word "i64"]
  conditions := []
  body := [.literal "0"]

/-- A function without a receiver, with an attribute that would be a helper on one with a
receiver. -/
def newFunction : Function where
  attributes := []
  qualifiers := []
  name := "new"
  generics := ⟨[], false⟩
  receiver := none
  params := [⟨[⟨false, [.word "arg", .group .paren [.word "default"]]⟩], [.word "log"],
    [.word "Log"]⟩]
  variadic := none
  trailing := false
  output := [.mark '-' true, .alone '>', .word "Self"]
  conditions := []
  body := [.word "Self", .group .paren [.word "log"]]

/-- A block of the two functions. -/
def operationsBlock : ImplBlock where
  attributes := []
  qualifiers := []
  generics := ⟨[], false⟩
  trait? := none
  type := [.word "Operations"]
  conditions := []
  items := [.function executeFunction, .function newFunction]

/-- The block is read from its trees. -/
theorem ofTrees_operationsBlock :
    ImplBlock.ofTrees operationsBlock.trees = .ok operationsBlock := by
  have hitems : BlockItem.readAll (operationsBlock.items.flatMap BlockItem.trees) =
      operationsBlock.items := by
    have hexecute : BlockItem.read (operationsBlock.items.flatMap BlockItem.trees) =
        (.function executeFunction, newFunction.trees) := rfl
    have hnew : BlockItem.read newFunction.trees = (.function newFunction, []) := rfl
    rw [BlockItem.readAll_cons (by rintro ⟨⟩) hexecute (by decide),
      BlockItem.readAll_cons (by rintro ⟨⟩) hnew (by decide), BlockItem.readAll]
    rfl
  have hblock : ImplBlock.ofTrees operationsBlock.trees = .ok { operationsBlock with
      items := BlockItem.readAll (operationsBlock.items.flatMap BlockItem.trees) } := rfl
  rw [hblock, hitems]

end Source

end Delegation
