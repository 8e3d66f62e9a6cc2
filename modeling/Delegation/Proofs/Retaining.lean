import Delegation.Proofs.Captured
/-!
# Capture in place

A block can be captured while its helper attributes are taken off. Every list of
attributes is gone through once: helper attributes are read as they are taken
out, all others are kept, and of several faults the last one counts. What is
faulty later on leaves the block as far as it was captured. Where there is an
expansion this gives the same class as capturing the block as it is written,
and leaves the block without its helper attributes; and where there is none it
comes to the same fault.
-/

namespace Delegation

open Source

namespace Capture

/-- A fault counts unless there is one after it. -/
theorem allOrLast_cons_error {ε α : Type} (fault : ε) (rs : List (Except ε α)) :
    allOrLast (.error fault :: rs) = (allOrLast rs).bind fun _ => .error fault := by
  cases hrs : allOrLast rs <;> simp [allOrLast, hrs, Except.bind]

/-- A value comes before those after it. -/
theorem allOrLast_cons_ok {ε α : Type} (x : α) (rs : List (Except ε α)) :
    allOrLast (.ok x :: rs) = (allOrLast rs).map (x :: ·) := by
  cases hrs : allOrLast rs <;> simp [allOrLast, hrs, Except.map]

/-- What going through attributes has come to so far. -/
structure Sweep (σ : Type) where
  /-- The attributes that were kept. -/
  kept : List Attribute
  /-- What those that were taken out say. -/
  said : σ
  /-- The last fault among them. -/
  fault? : Option ExposureFault

namespace Sweep

variable {σ : Type} {name : String}
  {take : σ → Attribute → Attribute.Argument → Except ExposureFault σ}

/-- One more attribute: it is taken out if it has a given name, and kept otherwise. -/
def pass (name : String) (take : σ → Attribute → Attribute.Argument → Except ExposureFault σ)
    (s : Sweep σ) (a : Attribute) : Sweep σ :=
  match a.argument? name with
  | none => { s with kept := s.kept ++ [a] }
  | some argument =>
    match take s.said a argument with
    | .ok said => { s with said }
    | .error fault => { s with fault? := some fault }

/-- What was said, or the last fault. -/
def outcome (s : Sweep σ) : Except ExposureFault σ :=
  match s.fault? with
  | some fault => .error fault
  | none => .ok s.said

/-- An attribute of another name is kept, and has nothing to say. -/
theorem pass_of_not_named {s : Sweep σ} {a : Attribute} (h : a.argument? name = none) :
    s.pass name take a = { s with kept := s.kept ++ [a] } := by
  rw [pass, h]

/-- An attribute of the name that can be read adds what it says. -/
theorem pass_of_ok {s : Sweep σ} {a : Attribute} {argument : Attribute.Argument} {said : σ}
    (h : a.argument? name = some argument) (hsaid : take s.said a argument = .ok said) :
    s.pass name take a = { s with said } := by
  simp only [pass, h, hsaid]

/-- An attribute of the name that cannot be read leaves its fault. -/
theorem pass_of_error {s : Sweep σ} {a : Attribute} {argument : Attribute.Argument}
    {fault : ExposureFault} (h : a.argument? name = some argument)
    (hfault : take s.said a argument = .error fault) :
    s.pass name take a = { s with fault? := some fault } := by
  simp only [pass, h, hfault]

/-- Whatever the attributes say, those of other names are kept in order. -/
theorem kept_foldl_pass (as : List Attribute) (s : Sweep σ) :
    (as.foldl (pass name take) s).kept = s.kept ++ as.filter fun a => !a.isNamed name := by
  induction as generalizing s with
  | nil => simp
  | cons a as ih =>
    rw [List.foldl_cons, ih]
    cases hnamed : a.argument? name with
    | none =>
      rw [pass_of_not_named hnamed]
      simp [Attribute.isNamed, hnamed]
    | some argument =>
      have hkept : (s.pass name take a).kept = s.kept := by
        cases hsaid : take s.said a argument with
        | ok said => rw [pass_of_ok hnamed hsaid]
        | error fault => rw [pass_of_error hnamed hsaid]
      rw [hkept]
      simp [Attribute.isNamed, hnamed]

end Sweep

/-- One more helper attribute with old names. -/
def takeRules (rules : List (String × String)) (a : Attribute) (argument : Attribute.Argument) :
    Except ExposureFault (List (String × String)) :=
  (readHelper renamesHelper (SettingNames.read .every) a argument).map (rules ++ ·)

/-- The attributes without those that give old names, and the names that these give. -/
def takeRenames (as : List Attribute) : List Attribute × Except ExposureFault Renaming :=
  let s := as.foldl (Sweep.pass renamesHelper takeRules) ⟨[], [], none⟩
  (s.kept, s.outcome.map Renaming.mk)

/-- Going through attributes adds the old names that all of them give. -/
theorem outcome_foldl_takeRules (as : List Attribute) (s : Sweep (List (String × String))) :
    (as.foldl (Sweep.pass renamesHelper takeRules) s).outcome =
      (allOrLast (readHelpers renamesHelper (SettingNames.read .every) as)).bind fun rules =>
        s.outcome.map (· ++ rules.flatten) := by
  induction as generalizing s with
  | nil => cases hs : s.outcome <;> simp [readHelpers, allOrLast, Except.bind, Except.map, hs]
  | cons a as ih =>
    rw [List.foldl_cons, ih]
    cases hnamed : a.argument? renamesHelper with
    | none =>
      rw [Sweep.pass_of_not_named hnamed, readHelpers_cons_of_none hnamed]
      rfl
    | some argument =>
      rw [readHelpers_cons_of_some hnamed]
      cases hread : readHelper renamesHelper (SettingNames.read .every) a argument with
      | error fault =>
        have htake : takeRules s.said a argument = .error fault := by
          rw [takeRules, hread]
          rfl
        rw [Sweep.pass_of_error hnamed htake, allOrLast_cons_error]
        cases allOrLast (readHelpers renamesHelper (SettingNames.read .every) as) <;> rfl
      | ok rules =>
        have htake : takeRules s.said a argument = .ok (s.said ++ rules) := by
          rw [takeRules, hread]
          rfl
        rw [Sweep.pass_of_ok hnamed htake, allOrLast_cons_ok]
        cases allOrLast (readHelpers renamesHelper (SettingNames.read .every) as) with
        | error fault => rfl
        | ok more =>
          cases hfault : s.fault? <;> simp [Sweep.outcome, Except.bind, Except.map, hfault]

/-- Taking old names out gives those that the attributes give. -/
theorem takeRenames_eq (as : List Attribute) :
    takeRenames as = (as.filter fun a => !a.isNamed renamesHelper, renames as) := by
  have houtcome := outcome_foldl_takeRules as ⟨[], [], none⟩
  rw [takeRenames, Sweep.kept_foldl_pass, houtcome, renames]
  cases allOrLast (readHelpers renamesHelper (SettingNames.read .every) as) <;> rfl

/-- Whether a parameter was given a role. -/
def isGiven {δ : Type} : Role δ → Bool
  | .required => false
  | _ => true

variable (expression : ExpressionReader)

/-- One more helper attribute with a role, of which there may be one. -/
def takeSole (role : Role (Option (List Tree))) (a : Attribute) (argument : Attribute.Argument) :
    Except ExposureFault (Role (Option (List Tree))) :=
  (readHelper roleHelper (readRole expression) a argument).bind fun said =>
    if isGiven role then .error .repeatedRole else .ok said

/-- The attributes without those that give a role, and the role that these give. -/
def takeRole (as : List Attribute) :
    List Attribute × Except ExposureFault (Role (Option (List Tree))) :=
  let s := as.foldl (Sweep.pass roleHelper (takeSole expression)) ⟨[], .required, none⟩
  (s.kept, s.outcome)

variable {expression} in
/-- A helper attribute gives a role. -/
theorem isGiven_of_readHelper {a : Attribute} {argument : Attribute.Argument}
    {role : Role (Option (List Tree))}
    (h : readHelper roleHelper (readRole expression) a argument = .ok role) :
    isGiven role = true := by
  cases argument with
  | absent => cases h
  | assigned value => cases h
  | listed inside => cases readRole_eq_ok.1 h <;> rfl

/-- Going through attributes gives the one role among them, if there was none before. -/
theorem outcome_foldl_takeSole (as : List Attribute) (s : Sweep (Role (Option (List Tree)))) :
    (as.foldl (Sweep.pass roleHelper (takeSole expression)) s).outcome =
      (allOrLast (refuseRepeated (isGiven s.said)
        (readHelpers roleHelper (readRole expression) as))).bind
          fun roles => s.outcome.map fun role => roles.head?.getD role := by
  -- What was said before is the state of the one loop and, as a flag, that of the other.
  induction as generalizing s with
  | nil =>
    cases hs : s.outcome <;>
      simp [readHelpers, refuseRepeated, allOrLast, Except.bind, Except.map, hs]
  | cons a as ih =>
    rw [List.foldl_cons, ih]
    cases hnamed : a.argument? roleHelper with
    | none =>
      rw [Sweep.pass_of_not_named hnamed, readHelpers_cons_of_none hnamed]
      rfl
    | some argument =>
      rw [readHelpers_cons_of_some hnamed]
      cases hread : readHelper roleHelper (readRole expression) a argument with
      | error fault =>
        have htake : takeSole expression s.said a argument = .error fault := by
          rw [takeSole, hread]
          rfl
        rw [Sweep.pass_of_error hnamed htake, refuseRepeated, allOrLast_cons_error]
        dsimp only
        cases allOrLast (refuseRepeated (isGiven s.said)
          (readHelpers roleHelper (readRole expression) as)) <;> rfl
      | ok role =>
        rw [refuseRepeated]
        cases hgiven : isGiven s.said with
        | true =>
          have htake : takeSole expression s.said a argument = .error .repeatedRole := by
            rw [takeSole, hread]
            exact if_pos hgiven
          rw [Sweep.pass_of_error hnamed htake, if_pos rfl, allOrLast_cons_error]
          dsimp only
          rw [hgiven]
          cases allOrLast (refuseRepeated true
            (readHelpers roleHelper (readRole expression) as)) <;> rfl
        | false =>
          have htake : takeSole expression s.said a argument = .ok role := by
            rw [takeSole, hread]
            exact if_neg (by simp [hgiven])
          rw [Sweep.pass_of_ok hnamed htake, if_neg Bool.false_ne_true, allOrLast_cons_ok]
          dsimp only
          rw [isGiven_of_readHelper hread]
          cases hrest : allOrLast (refuseRepeated true
            (readHelpers roleHelper (readRole expression) as)) with
          | error fault => rfl
          | ok roles =>
            obtain rfl : roles = [] :=
              (refuseRepeated_eq_ok.1 (allOrLast_eq_ok.1 hrest)).2.1 rfl
            cases hfault : s.fault? <;> simp [Sweep.outcome, Except.bind, Except.map, hfault]

/-- Taking a role out gives the one that the attributes give. -/
theorem takeRole_eq (as : List Attribute) :
    takeRole expression as = (as.filter fun a => !a.isNamed roleHelper, role expression as) := by
  have houtcome := outcome_foldl_takeSole expression as ⟨[], .required, none⟩
  rw [takeRole, Sweep.kept_foldl_pass, houtcome, role]
  dsimp only [isGiven]
  cases allOrLast (refuseRepeated false (readHelpers roleHelper (readRole expression) as)) <;> rfl

/-- An attribute that gives old names is no line of documentation. -/
theorem docLine?_of_isNamed {a : Attribute} (h : a.isNamed renamesHelper = true) :
    a.docLine? = none := by
  have hother : a.argument? "doc" = none := by
    by_contra hdoc
    have hnamed : a.isNamed "doc" = true := by simpa [Attribute.isNamed, Option.isSome_iff_ne_none]
    exact absurd (Attribute.isNamed_unique h hnamed) (by decide)
  rw [Attribute.docLine?, hother]

/-- The documentation is the same without the attributes that give old names. -/
theorem documentation_filter (as : List Attribute) :
    Attribute.documentation (as.filter fun a => !a.isNamed renamesHelper) =
      Attribute.documentation as := by
  have hlines : (as.filter fun a => !a.isNamed renamesHelper).filterMap Attribute.docLine? =
      as.filterMap Attribute.docLine? := by
    rw [List.filterMap_filter]
    refine List.filterMap_congr fun a _ => ?_
    cases hnamed : a.isNamed renamesHelper with
    | true => simp [docLine?_of_isNamed hnamed]
    | false => simp
  rw [Attribute.documentation, Attribute.documentation, hlines]

/-- What is left of something once it was captured, and what was found: exactly what is found
otherwise, and, if that is a value, exactly what should be left. -/
inductive Captures {α β : Type} :
    α × Except ExposureFault β → α → Except ExposureFault β → Prop where
  /-- Something was found. -/
  | found {left : α} (x : β) : Captures (left, .ok x) left (.ok x)
  /-- There was a fault, with something half captured. -/
  | refused {half left : α} (fault : ExposureFault) :
    Captures (half, .error fault) left (.error fault)

namespace Captures

variable {α β γ δ : Type} {done : α × Except ExposureFault β} {left : α}
  {found : Except ExposureFault β}

/-- What is captured is captured as a part of something else. -/
theorem within (h : Captures done left found) (whole : α → γ) :
    Captures (whole done.1, done.2) (whole left) found := by
  cases h with
  | found x => exact .found x
  | refused fault => exact .refused fault

/-- What was found is made into something else. -/
theorem map (h : Captures done left found) (f : β → δ) :
    Captures (done.1, done.2.map f) left (found.map f) := by
  cases h with
  | found x => exact .found (f x)
  | refused fault => exact .refused fault

end Captures

/-- A parameter is captured in place. -/
def paramInPlace (p : Param) : Param × Except ExposureFault CapturedParam :=
  match identifier? p.pattern with
  | none => (p, .error .pattern)
  | some ident =>
    if isReference p.type then (p, .error .reference)
    else
      let (attributes, role) := takeRole expression p.attributes
      ({ p with attributes }, role.map fun role => ⟨ident, p.type, role⟩)

/-- Parameters are captured in place, up to one that cannot be. -/
def paramsInPlace : Bool → Bool → List Param →
    List Param × Except ExposureFault (List CapturedParam)
  | _, _, [] => ([], .ok [])
  | varargs, varkw, p :: ps =>
    match paramInPlace expression p with
    | (p, .error fault) => (p :: ps, .error fault)
    | (p, .ok c) =>
      match c.role with
      | .varargs =>
        if varargs then (p :: ps, .error .duplicateVarargs)
        else
          let (ps, found) := paramsInPlace true varkw ps
          (p :: ps, found.map (c :: ·))
      | .varkw =>
        if varkw then (p :: ps, .error .duplicateVarkw)
        else
          let (ps, found) := paramsInPlace varargs true ps
          (p :: ps, found.map (c :: ·))
      | _ =>
        let (ps, found) := paramsInPlace varargs varkw ps
        (p :: ps, found.map (c :: ·))

/-- A function is captured in place: first its old names, then its documentation as it stands
without them, then its parameters. -/
def functionInPlace (f : Function) : Function × Except ExposureFault (Option CapturedMethod) :=
  match f.receiver with
  | none => (f, .ok none)
  | some r =>
    if r.reference.isNone || r.mutable then (f, .error .receiver)
    else if f.isAsync then (f, .error .asynchronous)
    else if !f.generics.entries.isEmpty then (f, .error .generic)
    else
      match takeRenames f.attributes with
      | (attributes, .error fault) => ({ f with attributes }, .error fault)
      | (attributes, .ok renames) =>
        let doc := Attribute.documentation attributes
        let (params, found) := paramsInPlace expression false false f.params
        ({ f with attributes, params }, found.map fun params =>
          some { ident := f.name, params, renames, doc })

/-- The functions among items are captured in place, up to one that cannot be. -/
def itemsInPlace : List BlockItem → List BlockItem × Except ExposureFault (List CapturedMethod)
  | [] => ([], .ok [])
  | .function f :: items =>
    match functionInPlace expression f with
    | (f, .error fault) => (.function f :: items, .error fault)
    | (f, .ok method) =>
      let (items, found) := itemsInPlace items
      (.function f :: items, found.map (method.toList ++ ·))
  | item :: items =>
    let (items, found) := itemsInPlace items
    (item :: items, found)

/-- Capturing a parameter in place takes its helper attributes off it. -/
theorem paramInPlace_captures (p : Param) :
    Captures (paramInPlace expression p) p.withoutHelpers (param expression p) := by
  unfold paramInPlace param
  cases identifier? p.pattern with
  | none => exact .refused _
  | some ident =>
    dsimp only
    split_ifs with hreference
    · exact .refused _
    · rw [takeRole_eq]
      cases role expression p.attributes with
      | ok role => exact .found _
      | error fault => exact .refused _

/-- Capturing parameters in place takes their helper attributes off them. -/
theorem paramsInPlace_captures (varargs varkw : Bool) (ps : List Param) :
    Captures (paramsInPlace expression varargs varkw ps) (ps.map Param.withoutHelpers)
      (params expression varargs varkw ps) := by
  induction ps generalizing varargs varkw with
  | nil => exact .found _
  | cons p ps ih =>
    have hparam := paramInPlace_captures expression p
    rw [paramsInPlace, params, List.map_cons]
    generalize paramInPlace expression p = done, p.withoutHelpers = left,
      param expression p = found at hparam ⊢
    cases hparam with
    | refused => exact .refused _
    | found c =>
      obtain ⟨ident, type, role⟩ := c
      have hrest := fun varargs varkw =>
        ((ih varargs varkw).within (left :: ·)).map ((⟨ident, type, role⟩ : CapturedParam) :: ·)
      cases role with
      | varargs =>
        cases varargs with
        | true => exact .refused _
        | false => exact hrest true varkw
      | varkw =>
        cases varkw with
        | true => exact .refused _
        | false => exact hrest varargs true
      | required => exact hrest varargs varkw
      | default value => exact hrest varargs varkw

/-- Capturing a function in place takes the helper attributes off it, if it has a receiver. -/
theorem functionInPlace_captures (f : Function) :
    Captures (functionInPlace expression f) f.withoutHelpers (function? expression f) := by
  unfold functionInPlace function? Function.withoutHelpers
  cases f.receiver with
  | none => exact .found _
  | some r =>
    simp only [Option.isNone_some, Bool.false_eq_true, if_false]
    split_ifs
    · exact .refused _
    · exact .refused _
    · exact .refused _
    · rw [takeRenames_eq]
      cases renames f.attributes with
      | error fault => exact .refused _
      | ok renames =>
        dsimp only
        rw [documentation_filter]
        have hparams := paramsInPlace_captures expression false false f.params
        generalize paramsInPlace expression false false f.params = done,
          f.params.map Param.withoutHelpers = left,
          params expression false false f.params = found at hparams ⊢
        cases hparams with
        | found params => exact .found _
        | refused fault => exact .refused _

/-- Capturing the items of a block in place takes the helper attributes off its functions. -/
theorem itemsInPlace_captures (b : ImplBlock) (items : List BlockItem) :
    Captures (itemsInPlace expression items) (items.map BlockItem.withoutHelpers)
      (functions expression ({ b with items } : ImplBlock).functions) := by
  induction items with
  | nil => exact .found _
  | cons item items ih =>
    cases item with
    | function f =>
      have hfunction := functionInPlace_captures expression f
      change Captures _ _ (functions expression (f :: ({ b with items } : ImplBlock).functions))
      rw [itemsInPlace, functions, List.map_cons, BlockItem.withoutHelpers]
      generalize functionInPlace expression f = done, f.withoutHelpers = left,
        function? expression f = found at hfunction ⊢
      cases hfunction with
      | refused => exact .refused _
      | found method => exact (ih.within (.function left :: ·)).map (method.toList ++ ·)
    | typeAlias a => exact ih.within (.typeAlias a :: ·)
    | other written => exact ih.within (.other written :: ·)

end Capture

namespace Expansion

variable (expression : ExpressionReader)

/-- A block is expanded in place: what stays of it, and its class. -/
def inPlace (name : Option String) (b : ImplBlock) :
    ImplBlock × Except ExposureFault GeneratedClass :=
  if b.trait?.isSome then (b, .error .traitBlock)
  else
    match name.or (typeName? b.type) with
    | none => (b, .error .unnamedType)
    | some name =>
      let (items, found) := Capture.itemsInPlace expression b.items
      ({ b with items }, found.map fun methods =>
        { name, generics := b.generics, type := b.type, conditions := b.conditions, methods })

/-- Expanding a block in place takes the helper attributes off it. -/
theorem inPlace_captures (name : Option String) (b : ImplBlock) :
    Capture.Captures (inPlace expression name b) b.withoutHelpers
      ((ofBlock expression name b).map (·.generated)) := by
  unfold inPlace ofBlock
  split_ifs
  · exact .refused _
  · cases name.or (typeName? b.type) with
    | none => exact .refused _
    | some name =>
      have hitems := Capture.itemsInPlace_captures expression b b.items
      change Capture.Captures _ { b with items := b.items.map BlockItem.withoutHelpers }
        (((Capture.functions expression b.functions).map _).map _)
      have hblock := hitems.within fun items => { b with items }
      generalize Capture.functions expression b.functions = found at hblock ⊢
      have hfused : ∀ (f : List CapturedMethod → Expansion), (found.map f).map (·.generated) =
          found.map fun methods => (f methods).generated := by
        intro f
        cases found <;> rfl
      rw [hfused]
      exact hblock.map _

/-- A block is expanded in place to what it is expanded to, and refused for the same fault. -/
theorem ofBlock_eq_inPlace (name : Option String) (b : ImplBlock) :
    ofBlock expression name b = (inPlace expression name b).2.map fun generated =>
      ⟨(inPlace expression name b).1, generated⟩ := by
  have hblock : ∀ x, ofBlock expression name b = .ok x → x.block = b.withoutHelpers :=
    fun x hx => (ofBlock_eq_ok.1 hx).2.2.2.1
  have hcaptures := inPlace_captures expression name b
  generalize inPlace expression name b = done at hcaptures ⊢
  cases hfound : ofBlock expression name b with
  | error fault =>
    rw [hfound] at hcaptures
    cases hcaptures
    rfl
  | ok x =>
    rw [hfound] at hcaptures
    cases hcaptures
    rw [← hblock x hfound]
    rfl

variable {expression} in
/-- Where there is an expansion, its block is what is left of the block in place. -/
theorem inPlace_of_ofBlock {name : Option String} {b : ImplBlock} {x : Expansion}
    (h : ofBlock expression name b = .ok x) :
    inPlace expression name b = (x.block, .ok x.generated) := by
  rw [ofBlock_eq_inPlace] at h
  obtain ⟨generated, hgenerated, rfl⟩ := except_map_eq_ok.1 h
  exact Prod.ext rfl hgenerated

end Expansion

end Delegation
