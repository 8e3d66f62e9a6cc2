import Delegation.Proofs.Retaining
/-!
# What is taken off a block

An expanded block is written as before, but for its helper attributes: these
are taken out, each as a whole, and every other token stays where it is. They
are the attributes with the old names on the functions with a receiver, and
the ones with the role on the parameters of these. What was taken off is what
the interfaces have the old names from.
-/

namespace Delegation

open Source

/-- Tokens from which the tokens of attributes are taken out, each attribute as a whole and one
after the other. All other tokens are kept. -/
inductive Erases : List Attribute → List String → List String → Prop where
  /-- No tokens. -/
  | nil : Erases [] [] []
  /-- A token that is kept. -/
  | keep {as : List Attribute} {tokens kept : List String} (token : String)
      (rest : Erases as tokens kept) : Erases as (token :: tokens) (token :: kept)
  /-- An attribute that is taken out. -/
  | drop {as : List Attribute} {tokens kept : List String} (a : Attribute)
      (rest : Erases as tokens kept) : Erases (a :: as) (Tree.printAll a.trees ++ tokens) kept

/-- Taking no attribute out keeps all tokens. -/
theorem Erases.refl (tokens : List String) : Erases [] tokens tokens := by
  induction tokens with
  | nil => exact .nil
  | cons token tokens ih => exact .keep token ih

/-- Tokens in a row are kept or taken out part by part. -/
theorem Erases.append {as bs : List Attribute} {tokens kept tokens' kept' : List String}
    (h : Erases as tokens kept) (h' : Erases bs tokens' kept') :
    Erases (as ++ bs) (tokens ++ tokens') (kept ++ kept') := by
  induction h with
  | nil => exact h'
  | keep token _ ih => exact .keep token ih
  | drop a _ ih =>
    rw [List.append_assoc]
    exact .drop a ih

/-- Trees whose tokens are those of others without some attributes. -/
def Strips (as : List Attribute) (ts us : List Tree) : Prop :=
  Erases as (Tree.printAll ts) (Tree.printAll us)

namespace Strips

variable {as bs : List Attribute} {ts us ts' us' : List Tree}

/-- Taking no attribute out keeps all trees. -/
theorem refl (ts : List Tree) : Strips [] ts ts := Erases.refl _

/-- Trees in a row are stripped part by part. -/
theorem append (h : Strips as ts us) (h' : Strips bs ts' us') :
    Strips (as ++ bs) (ts ++ ts') (us ++ us') := by
  unfold Strips
  rw [Tree.printAll_append, Tree.printAll_append]
  exact Erases.append h h'

/-- Trees between the same ones are stripped in their place. -/
theorem between (before after : List Tree) (h : Strips as ts us) :
    Strips as (before ++ ts ++ after) (before ++ us ++ after) := by
  have hall := ((refl before).append h).append (refl after)
  rwa [List.nil_append, List.append_nil] at hall

/-- A group is stripped inside. -/
theorem group (d : Delimiter) (h : Strips as ts us) : Strips as [.group d ts] [.group d us] := by
  have hgroup : ∀ inner : List Tree, Tree.printAll [.group d inner] =
      [d.opening] ++ Tree.printAll inner ++ [d.closing] := by
    intro inner
    simp [Tree.printAll, Tree.print]
  have hall := ((Erases.refl [d.opening]).append h).append (Erases.refl [d.closing])
  rw [List.nil_append, List.append_nil, ← hgroup, ← hgroup] at hall
  exact hall

/-- Attributes in a row are stripped of those that have a property. -/
theorem attributes (helper : Attribute → Bool) (as : List Attribute) :
    Strips (as.filter helper) (Attribute.allTrees as)
      (Attribute.allTrees (as.filter fun a => !helper a)) := by
  induction as with
  | nil => exact .nil
  | cons a as ih =>
    unfold Strips Attribute.allTrees at ih ⊢
    rw [List.flatMap_cons, Tree.printAll_append]
    cases hhelper : helper a with
    | true =>
      rw [List.filter_cons_of_pos hhelper, List.filter_cons_of_neg (by simp [hhelper])]
      exact .drop a ih
    | false =>
      rw [List.filter_cons_of_neg (by simp [hhelper]), List.filter_cons_of_pos (by simp [hhelper]),
        List.flatMap_cons, Tree.printAll_append]
      exact (Erases.refl _).append ih

/-- Items in a row are stripped one by one. -/
theorem flatMap {α : Type} {helpers : α → List Attribute} {trees trees' : α → List Tree}
    (xs : List α) (h : ∀ x ∈ xs, Strips (helpers x) (trees x) (trees' x)) :
    Strips (xs.flatMap helpers) (xs.flatMap trees) (xs.flatMap trees') := by
  induction xs with
  | nil => exact .nil
  | cons x xs ih =>
    rw [List.forall_mem_cons] at h
    exact h.1.append (ih h.2)

/-- Items with a separator between each two are stripped one by one. -/
theorem intercalate {α : Type} (separator : List Tree) {helpers : α → List Attribute}
    {trees trees' : α → List Tree} (xs : List α)
    (h : ∀ x ∈ xs, Strips (helpers x) (trees x) (trees' x)) :
    Strips (xs.flatMap helpers) (separator.intercalate (xs.map trees))
      (separator.intercalate (xs.map trees')) := by
  induction xs with
  | nil => exact .nil
  | cons x xs ih =>
    rw [List.forall_mem_cons] at h
    cases xs with
    | nil => simpa using h.1
    | cons y ys =>
      have hrest := ih h.2
      simp only [List.map_cons, List.intercalate_cons_cons, List.flatMap_cons] at hrest ⊢
      have hfirst := h.1.append (refl separator)
      rw [List.append_nil] at hfirst
      exact hfirst.append hrest

/-- A list with commas is stripped entry by entry. -/
theorem listed {α : Type} {helpers : α → List Attribute} {trees trees' : α → List Tree}
    (xs : List α) (trailing : Bool) (h : ∀ x ∈ xs, Strips (helpers x) (trees x) (trees' x)) :
    Strips (xs.flatMap helpers) (Listed.trees ⟨xs.map trees, trailing⟩)
      (Listed.trees ⟨xs.map trees', trailing⟩) := by
  have hentries := intercalate [Tree.alone ','] xs h
  have hall := hentries.append (refl (if trailing && !xs.isEmpty then [Tree.alone ','] else []))
  simpa [Listed.trees] using hall

end Strips

namespace Source

/-- The helper attributes of a parameter. -/
def Param.helpers (p : Param) : List Attribute :=
  p.attributes.filter (·.isNamed Capture.roleHelper)

/-- The helper attributes of a function as they are written one after the other: those before it,
those of its parameters, those inside its body. Without a receiver it has none. -/
def Function.helpers (f : Function) : List Attribute :=
  if f.receiver.isNone then []
  else
    (f.attributes.filter fun a => !a.inner).filter (·.isNamed Capture.renamesHelper) ++
      f.params.flatMap Param.helpers ++
      (f.attributes.filter (·.inner)).filter (·.isNamed Capture.renamesHelper)

/-- The helper attributes of an item. -/
def BlockItem.helpers : BlockItem → List Attribute
  | function f => f.helpers
  | _ => []

/-- The helper attributes of a block as they are written one after the other. -/
def ImplBlock.helpers (b : ImplBlock) : List Attribute := b.items.flatMap BlockItem.helpers

/-- A parameter is stripped of its helper attributes. -/
theorem Param.strips (p : Param) : Strips p.helpers p.trees p.withoutHelpers.trees := by
  have hattributes := Strips.attributes (·.isNamed Capture.roleHelper) p.attributes
  have hall := Strips.between [] (p.pattern ++ .alone ':' :: p.type) hattributes
  simpa [Param.trees, Param.helpers, Param.withoutHelpers] using hall

/-- What a function takes is stripped of the helper attributes of its parameters. -/
theorem Function.strips_inputs {f : Function} (hreceiver : f.receiver.isSome = true) :
    Strips (f.params.flatMap Param.helpers) f.inputs f.withoutHelpers.inputs := by
  -- Every entry goes with its helper attributes, and with what it is without them.
  let entries : List (List Attribute × List Tree × List Tree) :=
    (f.receiver.toList.map fun r => ([], r.trees, r.trees)) ++
      (f.params.map fun p => (p.helpers, p.trees, p.withoutHelpers.trees)) ++
      f.variadic.toList.map fun v => ([], v, v)
  have hentries : ∀ entry ∈ entries, Strips entry.1 entry.2.1 entry.2.2 := by
    intro entry hentry
    rcases List.mem_append.1 hentry with hnamed | hvariadic
    · rcases List.mem_append.1 hnamed with hself | hparam
      · obtain ⟨r, -, rfl⟩ := List.mem_map.1 hself
        exact .refl _
      · obtain ⟨p, -, rfl⟩ := List.mem_map.1 hparam
        exact p.strips
    · obtain ⟨v, -, rfl⟩ := List.mem_map.1 hvariadic
      exact .refl _
  have hall := Strips.listed entries f.trailing hentries
  have hnone : ∀ {α : Type} (xs : List α), (xs.flatMap fun _ => ([] : List Attribute)) = [] :=
    fun xs => List.flatMap_eq_nil_iff.2 fun _ _ => rfl
  have hpresent : f.receiver.isNone = false := by simpa using hreceiver
  simpa [entries, Function.inputs, Function.withoutHelpers, hpresent, List.flatMap_map,
    Function.comp_def, hnone] using hall

/-- A function is stripped of its helper attributes. -/
theorem Function.strips (f : Function) : Strips f.helpers f.trees f.withoutHelpers.trees := by
  cases hreceiver : f.receiver.isNone with
  | true =>
    rw [Function.helpers, Function.withoutHelpers, if_pos hreceiver, if_pos hreceiver]
    exact .refl _
  | false =>
    have hbefore := Strips.attributes (·.isNamed Capture.renamesHelper)
      (f.attributes.filter fun a => !a.inner)
    have hinside := Strips.attributes (·.isNamed Capture.renamesHelper)
      (f.attributes.filter (·.inner))
    have hinputs := f.strips_inputs (by simpa using hreceiver)
    have hbody := Strips.group .brace (hinside.between [] f.body)
    have hhead := (hbefore.append (Strips.refl (f.qualifiers ++
      .word "fn" :: .word f.name :: Generics.trees true f.generics))).append
        (Strips.group .paren hinputs)
    have hall := hhead.append (hbody.between (f.output ++ whereTrees f.conditions) [])
    simpa [Function.helpers, Function.trees, Function.withoutHelpers, hreceiver,
      List.filter_filter, Bool.and_comm] using hall

/-- An item is stripped of its helper attributes. -/
theorem BlockItem.strips (item : BlockItem) :
    Strips item.helpers item.trees item.withoutHelpers.trees := by
  cases item with
  | function f => exact f.strips
  | typeAlias a => exact .refl _
  | other written => exact .refl _

/-- The items of a block stand between braces at its end. -/
theorem ImplBlock.exists_trees_eq (b : ImplBlock) : ∃ before, ∀ items : List BlockItem,
    ({ b with items } : ImplBlock).trees = before ++ [.group .brace
      (Attribute.allTrees (b.attributes.filter (·.inner)) ++ items.flatMap BlockItem.trees)] := by
  refine ⟨Attribute.allTrees (b.attributes.filter fun a => !a.inner) ++ b.qualifiers ++
    .word "impl" :: (Generics.trees true b.generics ++
      b.trait?.elim [] (· ++ [.word "for"]) ++ b.type ++ whereTrees b.conditions), fun items => ?_⟩
  rw [List.append_assoc, List.cons_append]
  dsimp only [ImplBlock.trees]
  cases b.trait? <;> rfl

/-- A block is stripped of its helper attributes. -/
theorem ImplBlock.strips (b : ImplBlock) : Strips b.helpers b.trees b.withoutHelpers.trees := by
  have hitems : Strips b.helpers (b.items.flatMap BlockItem.trees)
      ((b.items.map BlockItem.withoutHelpers).flatMap BlockItem.trees) := by
    rw [List.flatMap_map]
    exact Strips.flatMap b.items fun item _ => item.strips
  have hinside := Strips.group .brace
    ((Strips.refl (Attribute.allTrees (b.attributes.filter (·.inner)))).append hitems)
  obtain ⟨before, htrees⟩ := b.exists_trees_eq
  have hall := (Strips.refl before).append hinside
  rw [← htrees, ← htrees] at hall
  exact hall

/-- Among attributes that are no helpers there is none, whichever of them are looked at. -/
theorem filter_filter_not (helper looked : Attribute → Bool) (as : List Attribute) :
    ((as.filter fun a => !helper a).filter looked).filter helper = [] := by
  refine List.filter_eq_nil_iff.2 fun a ha => ?_
  have hother := (List.mem_filter.1 (List.mem_filter.1 ha).1).2
  simpa using hother

/-- No helper attribute is left on a stripped parameter. -/
theorem Param.helpers_withoutHelpers (p : Param) : p.withoutHelpers.helpers = [] := by
  refine List.filter_eq_nil_iff.2 fun a ha => ?_
  rw [p.isNamed_withoutHelpers ha]
  exact Bool.false_ne_true

/-- No helper attribute is left on a stripped function. -/
theorem Function.helpers_withoutHelpers (f : Function) : f.withoutHelpers.helpers = [] := by
  unfold Function.withoutHelpers Function.helpers
  cases hreceiver : f.receiver.isNone with
  | true => simp [hreceiver]
  | false =>
    have hparams : (f.params.map Param.withoutHelpers).flatMap Param.helpers = [] := by
      rw [List.flatMap_map]
      exact List.flatMap_eq_nil_iff.2 fun p _ => p.helpers_withoutHelpers
    simp only [Bool.false_eq_true, if_false, hreceiver, hparams, filter_filter_not, List.append_nil]

/-- No helper attribute is left on a stripped block. -/
theorem ImplBlock.helpers_withoutHelpers (b : ImplBlock) : b.withoutHelpers.helpers = [] := by
  refine List.flatMap_eq_nil_iff.2 fun item hitem => ?_
  obtain ⟨before, -, rfl⟩ := List.mem_map.1 hitem
  cases before with
  | function f => exact f.helpers_withoutHelpers
  | typeAlias a => rfl
  | other written => rfl

/-- What stays of an item in an expanded block. -/
inductive BlockItem.Stripped : BlockItem → BlockItem → Prop where
  /-- A function with a receiver, but for the helper attributes on it and on its parameters. -/
  | exposed {f : Function} (receiver : f.receiver.isSome = true) :
      Stripped (.function f) (.function { f with
        attributes := f.attributes.filter fun a => !a.isNamed Capture.renamesHelper
        params := f.params.map fun p =>
          { p with attributes := p.attributes.filter fun a => !a.isNamed Capture.roleHelper } })
  /-- A function without a receiver. -/
  | function {f : Function} (receiver : f.receiver = none) : Stripped (.function f) (.function f)
  /-- A type that is given a name. -/
  | typeAlias (a : TypeAlias) : Stripped (.typeAlias a) (.typeAlias a)
  /-- Any other item. -/
  | other (written : List Tree) : Stripped (.other written) (.other written)

/-- Every item is stripped like this. -/
theorem BlockItem.stripped (item : BlockItem) : item.Stripped item.withoutHelpers := by
  cases item with
  | function f =>
    cases hreceiver : f.receiver with
    | none =>
      have hkept : f.withoutHelpers = f := if_pos (by simp [hreceiver])
      rw [BlockItem.withoutHelpers, hkept]
      exact .function hreceiver
    | some r =>
      have hpresent : ¬ f.receiver.isNone = true := by simp [hreceiver]
      rw [BlockItem.withoutHelpers, Function.withoutHelpers, if_neg hpresent]
      exact .exposed (by simp [hreceiver])
  | typeAlias a => exact .typeAlias a
  | other written => exact .other written

end Source

namespace Expansion

/-- An expanded block comes back as it was but for its items, and these are stripped one by one:
functions with a receiver and their parameters lose their helper attributes, and nothing else
changes. This is what is left of the block when it is captured in place. In what is written, whole
attributes are missing, those that are the helper attributes of the block, and every other token is
there in its order; no helper attribute is left. The old names of an exposed method are those that
all helper attributes on its function say, one after the other. -/
theorem ofBlock_strips_helpers {expression : ExpressionReader} {name : Option String}
    {b : ImplBlock} {x : Expansion} (h : ofBlock expression name b = .ok x) :
    emitted (ofBlock expression name b) = x.block.trees ++ x.generated.trees ∧
    inPlace expression name b = (x.block, .ok x.generated) ∧
    x.block = { b with items := x.block.items } ∧
    List.Forall₂ BlockItem.Stripped b.items x.block.items ∧
    Strips b.helpers b.trees x.block.trees ∧
    x.block.helpers = [] ∧
    List.Forall₂ (fun f m => Capture.GivesRenames f.attributes m.renames)
      (b.functions.filter (·.receiver.isSome)) x.generated.methods := by
  obtain ⟨-, -, hmethods, hblock, -, -, -⟩ := ofBlock_eq_ok.1 h
  have hitems : List.Forall₂ BlockItem.Stripped b.items (b.items.map BlockItem.withoutHelpers) :=
    List.forall₂_map_right_iff.2 (List.forall₂_same.2 fun item _ => item.stripped)
  refine ⟨by rw [h]; rfl, inPlace_of_ofBlock h, by rw [hblock]; rfl, by rw [hblock]; exact hitems,
    ?_, ?_, ?_⟩
  · rw [hblock]
    exact b.strips
  · rw [hblock]
    exact b.helpers_withoutHelpers
  · exact hmethods.imp fun f m hm => hm.renames

/-- The block of operations loses the four helper attributes of its function with a receiver. -/
theorem operationsBlock_stripped :
    ∃ x, ofBlock literalExpression none operationsBlock = .ok x ∧
      operationsBlock.helpers.length = 4 ∧
      Strips operationsBlock.helpers operationsBlock.trees x.block.trees ∧
      x.block.helpers = [] := by
  obtain ⟨x, hx⟩ : ∃ x, ofBlock literalExpression none operationsBlock = .ok x := ⟨_, rfl⟩
  obtain ⟨-, -, -, -, hstrips, hnone, -⟩ := ofBlock_strips_helpers hx
  exact ⟨x, hx, by decide, hstrips, hnone⟩

/-- The function without a receiver keeps the attribute on its parameter. -/
example : newFunction.withoutHelpers.params.map (·.attributes.length) = [1] := by decide

end Expansion

end Delegation
