import Delegation.Proofs.Captured
/-!
# Blocks that can be exposed

Which blocks are expanded, said of the block alone: of its type, and of the
receivers, parameters and helper attributes of its functions. Functions without
a receiver and other items have no say in it. In place of a block that is not
expanded there is only the message of its fault.
-/

namespace Delegation

open Source

namespace Capture

variable {expression : ExpressionReader} {as : List Attribute}

/-- Attributes give old names exactly if each helper attribute among them says some. -/
theorem exists_givesRenames_iff :
    (∃ r, GivesRenames as r) ↔ ∀ a ∈ as, a.isNamed renamesHelper = true →
      ∃ rules, a.Tells renamesHelper TellsRules rules := by
  have heach : (∃ rules, List.Forall₂ (Attribute.Tells renamesHelper TellsRules)
      (as.filter (·.isNamed renamesHelper)) rules) ↔
      ∀ a ∈ as.filter (·.isNamed renamesHelper), ∃ rules, a.Tells renamesHelper TellsRules rules :=
    exists_forall₂_iff
  simp only [List.mem_filter, and_imp] at heach
  rw [← heach]
  constructor
  · rintro ⟨r, rules, hrules, -⟩
    exact ⟨rules, hrules⟩
  · rintro ⟨rules, hrules⟩
    exact ⟨_, rules, hrules, rfl⟩

/-- Attributes give a role exactly if there is at most one helper attribute among them, and it says
one. -/
theorem exists_givesRole_iff :
    (∃ r, GivesRole expression as r) ↔ (as.filter (·.isNamed roleHelper)).length ≤ 1 ∧
      ∀ a ∈ as, a.isNamed roleHelper = true →
        ∃ r, a.Tells roleHelper (TellsRole expression) r := by
  constructor
  · rintro ⟨r, hr⟩
    cases hr with
    | required hnone =>
      refine ⟨by simp [hnone], fun a ha hnamed => ?_⟩
      have hmem : a ∈ as.filter (·.isNamed roleHelper) := List.mem_filter.2 ⟨ha, hnamed⟩
      rw [hnone] at hmem
      cases hmem
    | said honly htells =>
      refine ⟨by simp [honly], fun a ha hnamed => ⟨r, ?_⟩⟩
      have hmem : a ∈ as.filter (·.isNamed roleHelper) := List.mem_filter.2 ⟨ha, hnamed⟩
      rw [honly, List.mem_singleton] at hmem
      exact hmem ▸ htells
  · rintro ⟨hlength, htells⟩
    cases honly : as.filter (·.isNamed roleHelper) with
    | nil => exact ⟨_, .required honly⟩
    | cons a others =>
      obtain rfl : others = [] := by
        rw [honly] at hlength
        exact List.length_eq_zero_iff.1 (by simpa using hlength)
      have hmem : a ∈ as.filter (·.isNamed roleHelper) := by simp [honly]
      obtain ⟨ha, hnamed⟩ := List.mem_filter.1 hmem
      obtain ⟨r, hr⟩ := htells a ha hnamed
      exact ⟨r, .said honly hr⟩

/-- Attributes give one role. -/
theorem GivesRole.unique {r r' : Role (Option (List Tree))} (h : GivesRole expression as r)
    (h' : GivesRole expression as r') : r = r' := by
  have hread := role_eq_ok.2 h
  rw [role_eq_ok.2 h'] at hread
  exact (Except.ok.inj hread).symm

/-- Functions without a receiver add nothing. -/
theorem functions_filter (fs : List Function) :
    functions expression (fs.filter (·.receiver.isSome)) = functions expression fs := by
  induction fs with
  | nil => rfl
  | cons f fs ih =>
    cases hreceiver : f.receiver with
    | none =>
      rw [List.filter_cons_of_neg (by simp [hreceiver]), ih, functions, function?_of_none hreceiver]
      cases functions expression fs <;> rfl
    | some r =>
      rw [List.filter_cons_of_pos (by simp [hreceiver]), functions, functions, ih]

end Capture

namespace Source

/-- A receiver is plain: it is borrowed, it is not to be changed, and its type is not written. -/
structure Receiver.Plain (r : Receiver) : Prop where
  /-- It is borrowed. -/
  borrowed : r.reference.isSome
  /-- It is not to be changed. -/
  constant : r.mutable = false
  /-- Its type is not written. -/
  untyped : r.type = none

/-- A parameter can be exposed. -/
structure Param.Exposable (expression : ExpressionReader) (p : Param) : Prop where
  /-- Its pattern is an identifier. -/
  pattern : ∃ ident, Capture.IdentifierPattern p.pattern ident
  /-- Its type is no reference. -/
  owned : ¬ Capture.IsReference p.type
  /-- At most one helper attribute is on it. -/
  once : (p.attributes.filter (·.isNamed Capture.roleHelper)).length ≤ 1
  /-- Such an attribute says a role. -/
  tells : ∀ a ∈ p.attributes, a.isNamed Capture.roleHelper = true →
    ∃ r, a.Tells Capture.roleHelper (Capture.TellsRole expression) r

/-- At most one parameter is given a role by its attributes. -/
def AtMostOne (expression : ExpressionReader) (r : Role (Option (List Tree))) (ps : List Param) :
    Prop :=
  ps.Pairwise fun p q =>
    Capture.GivesRole expression p.attributes r → ¬ Capture.GivesRole expression q.attributes r

/-- A function can be exposed. -/
structure Function.Exposable (expression : ExpressionReader) (f : Function) : Prop where
  /-- It has a plain receiver. -/
  receiver : ∃ r, f.receiver = some r ∧ r.Plain
  /-- It is not asynchronous. -/
  synchronous : f.isAsync = false
  /-- It has no generic parameters. -/
  plain : f.generics.entries = []
  /-- Each helper attribute on it says old names. -/
  renames : ∀ a ∈ f.attributes, a.isNamed Capture.renamesHelper = true →
    ∃ rules, a.Tells Capture.renamesHelper Capture.TellsRules rules
  /-- Its parameters can be exposed. -/
  params : ∀ p ∈ f.params, p.Exposable expression
  /-- At most one of them collects values given by position. -/
  varargs : AtMostOne expression .varargs f.params
  /-- At most one of them collects keywords. -/
  varkw : AtMostOne expression .varkw f.params

section Exposing

variable {expression : ExpressionReader}

/-- An interface can be captured of a parameter exactly if it can be exposed. -/
theorem Param.exists_gives_iff {p : Param} :
    (∃ c, p.Gives expression c) ↔ p.Exposable expression := by
  constructor
  · rintro ⟨c, hc⟩
    obtain ⟨honce, htells⟩ := Capture.exists_givesRole_iff.1 ⟨_, hc.role⟩
    exact ⟨⟨_, hc.pattern⟩, hc.owned, honce, htells⟩
  · rintro ⟨⟨ident, hpattern⟩, howned, honce, htells⟩
    obtain ⟨r, hr⟩ := Capture.exists_givesRole_iff.2 ⟨honce, htells⟩
    exact ⟨⟨ident, p.type, r⟩, hpattern, rfl, howned, hr⟩

/-- At most one parameter is given a role exactly if no two captured ones have it. -/
theorem atMostOne_iff {r : Role (Option (List Tree))} {ps : List Param} {cs : List CapturedParam}
    (h : List.Forall₂ (Param.Gives expression) ps cs) :
    AtMostOne expression r ps ↔ SoleRole r cs := by
  refine pairwise_not_both_iff (fun p c hc => ?_) h
  exact ⟨fun hr => hc.role.unique hr, fun hr => hr ▸ hc.role⟩

/-- An interface can be captured of a function exactly if it can be exposed. -/
theorem Function.exists_exposes_iff {f : Function} :
    (∃ m, f.Exposes expression m) ↔ f.Exposable expression := by
  constructor
  · rintro ⟨m, hm⟩
    obtain ⟨r, hr, hborrowed, hconstant⟩ := hm.receiver
    exact {
      receiver := ⟨r, hr, hborrowed, hconstant, r.untyped hborrowed⟩
      synchronous := hm.synchronous
      plain := hm.plain
      renames := Capture.exists_givesRenames_iff.1 ⟨_, hm.renames⟩
      params := fun p hp => Param.exists_gives_iff.1 (exists_forall₂_iff.1 ⟨_, hm.params⟩ p hp)
      varargs := (atMostOne_iff hm.params).2 hm.varargs
      varkw := (atMostOne_iff hm.params).2 hm.varkw }
  · intro hf
    obtain ⟨r, hr, hplain⟩ := hf.receiver
    obtain ⟨renames, hrenames⟩ := Capture.exists_givesRenames_iff.2 hf.renames
    obtain ⟨cs, hcs⟩ := exists_forall₂_iff.2 fun p hp => Param.exists_gives_iff.2 (hf.params p hp)
    exact ⟨⟨f.name, cs, renames, Attribute.documentation f.attributes⟩, {
      receiver := ⟨r, hr, hplain.borrowed, hplain.constant⟩
      synchronous := hf.synchronous
      plain := hf.plain
      ident := rfl
      params := hcs
      varargs := (atMostOne_iff hcs).1 hf.varargs
      varkw := (atMostOne_iff hcs).1 hf.varkw
      renames := hrenames
      doc := rfl }⟩

end Exposing

end Source

namespace Expansion

variable {expression : ExpressionReader} {name : Option String} {b : ImplBlock}

/-- There is an expansion of a block exactly if it implements no trait, a name is given or its type
is a path, and its functions with a receiver can be exposed. -/
theorem exists_ofBlock_iff :
    (∃ x, ofBlock expression name b = .ok x) ↔ b.trait? = none ∧
      (name.isSome = true ∨ Grammar.typePath.takesAll b.type = true) ∧
      ∀ f ∈ b.functions, f.receiver.isSome = true → f.Exposable expression := by
  have hnamed : (∃ given, name.or (typeName? b.type) = some given) ↔
      name.isSome = true ∨ Grammar.typePath.takesAll b.type = true := by
    rw [← Option.isSome_iff_exists, Option.isSome_or, Bool.or_eq_true, isSome_typeName?]
  have hfunctions : (∃ ms, List.Forall₂ (Function.Exposes expression)
      (b.functions.filter (·.receiver.isSome)) ms) ↔
      ∀ f ∈ b.functions, f.receiver.isSome = true → f.Exposable expression := by
    rw [exists_forall₂_iff]
    simp only [List.mem_filter, and_imp, Function.exists_exposes_iff]
  simp only [ofBlock_eq_ok]
  rw [← hnamed, ← hfunctions]
  constructor
  · rintro ⟨x, htrait, hname, hmethods, -⟩
    exact ⟨htrait, ⟨_, hname⟩, _, hmethods⟩
  · rintro ⟨htrait, ⟨given, hname⟩, ms, hmethods⟩
    exact ⟨⟨b.withoutHelpers, given, b.generics, b.type, b.conditions, ms⟩, htrait, hname, hmethods,
      rfl, rfl, rfl, rfl⟩

/-- The class of a block, or the fault for which there is none, is that of every other block with
the same header and the same functions with a receiver. -/
theorem generated_congr {items : List BlockItem}
    (h : ({ b with items } : ImplBlock).functions.filter (·.receiver.isSome) =
      b.functions.filter (·.receiver.isSome)) :
    (ofBlock expression name { b with items }).map generated =
      (ofBlock expression name b).map generated := by
  have hfunctions : Capture.functions expression ({ b with items } : ImplBlock).functions =
      Capture.functions expression b.functions := by
    rw [← Capture.functions_filter, h, Capture.functions_filter]
  unfold ofBlock
  rw [hfunctions]
  dsimp only
  split_ifs
  · rfl
  · cases name.or (typeName? b.type) with
    | none => rfl
    | some given => cases Capture.functions expression b.functions <;> rfl

/-- The message of a fault is no part of a block or a class. -/
theorem impl_not_mem_refusal (message : String) : "impl" ∉ Tree.printAll (refusal message) := by
  have htokens : Tree.printAll (refusal message) =
      [":", ":", "core", ":", ":", "compile_error", "!", "\x7b", Literal.ofText message, "\x7d"] :=
    rfl
  have hquoted : Literal.ofText message ≠ "impl" := by
    intro h
    have hstart := congrArg (·.toList.head?) h
    simp [Literal.ofText] at hstart
  rw [htokens]
  simp [hquoted.symm]

/-- Whatever reader of expressions is given: a block, with a name given for its class or none, is
expanded exactly if it implements no trait, a name is given or its type is a path, and every
function in it that has a receiver can be exposed. Its other items have no part in this, nor in the
class or the fault. An expanded block gives way to the block and the class; of one that is not
expanded only the message of its fault comes to be there, and no block or class. -/
theorem ofBlock_ok_iff_exposable (expression : ExpressionReader) (name : Option String)
    (b : ImplBlock) :
    ((∃ x, ofBlock expression name b = .ok x) ↔ b.trait? = none ∧
      (name.isSome = true ∨ Grammar.typePath.takesAll b.type = true) ∧
      ∀ f ∈ b.functions, f.receiver.isSome = true → f.Exposable expression) ∧
    (∀ items : List BlockItem,
      ({ b with items } : ImplBlock).functions.filter (·.receiver.isSome) =
        b.functions.filter (·.receiver.isSome) →
      (ofBlock expression name { b with items }).map generated =
        (ofBlock expression name b).map generated) ∧
    (∀ x, ofBlock expression name b = .ok x →
      emitted (ofBlock expression name b) = x.block.trees ++ x.generated.trees) ∧
    ∀ fault, ofBlock expression name b = .error fault →
      emitted (ofBlock expression name b) = refusal fault.message ∧
        "impl" ∉ Tree.printAll (emitted (ofBlock expression name b)) := by
  refine ⟨exists_ofBlock_iff, fun items => generated_congr, fun x hx => ?_,
    fun fault hfault => ?_⟩
  · rw [hx]
    rfl
  · rw [hfault]
    exact ⟨rfl, impl_not_mem_refusal fault.message⟩

/-- The block of operations is expanded under the name of its type, so its function with a receiver
can be exposed. -/
theorem executeFunction_exposable :
    ImplBlock.ofTrees operationsBlock.trees = .ok operationsBlock ∧
      (∃ x, ofBlock literalExpression none operationsBlock = .ok x) ∧
      executeFunction.Exposable literalExpression := by
  have hexpanded : ∃ x, ofBlock literalExpression none operationsBlock = .ok x := ⟨_, rfl⟩
  obtain ⟨-, -, hfunctions⟩ :=
    (ofBlock_ok_iff_exposable literalExpression none operationsBlock).1.1 hexpanded
  exact ⟨ofTrees_operationsBlock, hexpanded, hfunctions _ (.head _) rfl⟩

end Expansion

end Delegation
