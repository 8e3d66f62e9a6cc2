import Delegation.Proofs.Renaming
import Delegation.Proofs.Reporting
/-!
# What is left to be given by position

After its keywords are renamed, a call has to give by position the required
parameters that no keyword names. Going through the required parameters and
taking one value after the other for those comes to counting them: the values
are handed on as they were given, and the first parameter that finds none left
stands at the place that is their number. Where there are enough, binding
misses no argument: what the values given by position fill are first parameters,
so a required one left empty after them would be one more to be given.
-/

namespace Delegation

namespace Signature

variable {s : Signature} {a : Arguments} {keywords : NameMap Value} {given : Nat}

/-- The required parameters that no keyword names, in the order of declaration. -/
def unnamed (s : Signature) (keywords : NameMap Value) : List Parameter :=
  s.params.filter fun p => p.default = none ∧ p.name ∉ keywords

/-- A parameter is one of those if it has no default and no keyword names it. -/
theorem mem_unnamed {p : Parameter} : p ∈ s.unnamed keywords ↔
    p ∈ s.params ∧ p.default = none ∧ p.name ∉ keywords := by
  rw [unnamed, List.mem_filter, decide_eq_true_eq]

/-- They are found among the required parameters, which come first. -/
theorem unnamed_eq_filter_required (s : Signature) (keywords : NameMap Value) :
    s.unnamed keywords = s.required.filter fun p => p.name ∉ keywords := by
  rw [required_eq_filter, List.filter_filter, unnamed]
  congr 1
  funext p
  cases p.default <;> simp

/-- They are no more than the required parameters. -/
theorem length_unnamed_le_required (s : Signature) (keywords : NameMap Value) :
    (s.unnamed keywords).length ≤ s.required.length := by
  rw [unnamed_eq_filter_required]
  exact List.length_filter_le _ _

/-- One of the first parameters stands at one of the first places. -/
theorem mem_take_params {p : Parameter} :
    p ∈ s.params.take given ↔ ∃ i, i < given ∧ s.params[i]? = some p := by
  rw [List.mem_iff_getElem?]
  constructor
  · rintro ⟨i, hi⟩
    rw [List.getElem?_take] at hi
    split at hi
    · rename_i hlt
      exact ⟨i, hlt, hi⟩
    · cases hi
  · rintro ⟨i, hlt, hi⟩
    exact ⟨i, by rw [List.getElem?_take, if_pos hlt, hi]⟩

/-- They are those among the first parameters and after these those among the others. -/
theorem filter_take_append_filter_drop (s : Signature) (keywords : NameMap Value) (given : Nat) :
    (s.params.take given).filter (fun p => p.default = none ∧ p.name ∉ keywords) ++
      (s.params.drop given).filter (fun p => p.default = none ∧ p.name ∉ keywords) =
      s.unnamed keywords := by
  rw [← List.filter_append, List.take_append_drop]
  rfl

/-- Where the first parameters are required and no keyword names one of them, they are the first
ones to be given by position. -/
theorem unnamed_eq_append (hrequired : ∀ p ∈ s.params.take given, p.default = none)
    (hfree : ∀ p ∈ s.params.take given, p.name ∉ keywords) :
    s.unnamed keywords = s.params.take given ++
      (s.params.drop given).filter fun p => p.default = none ∧ p.name ∉ keywords := by
  have hfront : (s.params.take given).filter (fun p => p.default = none ∧ p.name ∉ keywords) =
      s.params.take given := by
    rw [List.filter_eq_self]
    intro p hp
    exact decide_eq_true ⟨hrequired p hp, hfree p hp⟩
  rw [← filter_take_append_filter_drop s keywords given, hfront]

/-- Where no keyword names one of the first parameters, a required one after them that no keyword
names either makes one more to be given by position. -/
theorem lt_length_unnamed {i : Nat} {p : Parameter}
    (hfree : ∀ q ∈ s.params.take given, q.name ∉ keywords) (hi : given ≤ i)
    (hp : s.params[i]? = some p) (hdefault : p.default = none) (hname : p.name ∉ keywords) :
    given < (s.unnamed keywords).length := by
  have hrequired : ∀ q ∈ s.params.take given, q.default = none := by
    intro q hq
    obtain ⟨j, hj, hq⟩ := mem_take_params.1 hq
    exact default_of_lt (Nat.lt_of_lt_of_le hj hi) hq hp hdefault
  have hlength : i < s.params.length := (List.getElem?_eq_some_iff.1 hp).1
  have hdrop : p ∈ s.params.drop given := by
    refine List.mem_iff_getElem?.2 ⟨i - given, ?_⟩
    rw [List.getElem?_drop, Nat.add_sub_cancel' hi, hp]
  have hmem : p ∈ (s.params.drop given).filter fun p => p.default = none ∧ p.name ∉ keywords :=
    List.mem_filter.2 ⟨hdrop, decide_eq_true ⟨hdefault, hname⟩⟩
  have hpos := List.length_pos_of_mem hmem
  rw [unnamed_eq_append hrequired hfree, List.length_append, List.length_take]
  omega

/-- A keyword that is not misplaced names none of the parameters filled by position. -/
theorem not_mem_of_not_misplaced (h : ∀ k ∈ keywords, ¬ s.Misplaced given k) :
    ∀ p ∈ s.params.take given, p.name ∉ keywords := by
  intro p hp hk
  obtain ⟨i, hi, hp⟩ := mem_take_params.1 hp
  have hfilled : p.name ∈ s.filledNames given := mem_filledNames.2 ⟨i, p, hi, hp, rfl⟩
  exact h p.name hk (.inl hfilled)

end Signature

namespace Renaming

variable {r : Renaming} {s : Signature} {a handed : Arguments}

/-- Values given by position on their way to the parameters. -/
structure Walk where
  /-- The values that were taken, in order. -/
  taken : List Value
  /-- The values left. -/
  left : List Value

/-- A parameter that a keyword names is passed over; any other takes the next value. -/
def Walk.pass (keywords : NameMap Value) (walk : Walk) (p : Parameter) :
    Except CoverageError Walk :=
  if p.name ∈ keywords then .ok walk
  else match walk.left with
    | [] => .error ⟨p.name⟩
    | v :: rest => .ok ⟨walk.taken ++ [v], rest⟩

/-- The arguments of a call with its keywords renamed, the values given by position taken one by
one and those left over put after them. -/
def adaptInPlace (r : Renaming) (s : Signature) (a : Arguments) :
    Except CoverageError Arguments :=
  let keywords := r.keywords a.keywords
  (s.required.foldlM (Walk.pass keywords) ⟨[], a.positional⟩).map fun walk =>
    ⟨walk.taken ++ walk.left, keywords⟩

/-- Taking the values one by one hands on what covers the parameters, after those already taken. -/
theorem foldlM_pass (keywords : NameMap Value) (ps : List Parameter) (taken left : List Value) :
    (ps.foldlM (Walk.pass keywords) ⟨taken, left⟩).map (fun walk => walk.taken ++ walk.left) =
      (cover keywords ps left).map (taken ++ ·) := by
  induction ps generalizing taken left with
  | nil => rfl
  | cons p ps ih =>
    rw [List.foldlM_cons]
    by_cases hp : p.name ∈ keywords
    · have hpass : Walk.pass keywords ⟨taken, left⟩ p = .ok ⟨taken, left⟩ := if_pos hp
      rw [hpass, cover_of_mem hp]
      exact ih taken left
    · rw [cover_of_not_mem hp]
      cases left with
      | nil =>
        have hpass : Walk.pass keywords ⟨taken, []⟩ p = .error ⟨p.name⟩ := if_neg hp
        rw [hpass]
        rfl
      | cons v rest =>
        have hpass : Walk.pass keywords ⟨taken, v :: rest⟩ p = .ok ⟨taken ++ [v], rest⟩ :=
          if_neg hp
        rw [hpass]
        refine (ih (taken ++ [v]) rest).trans ?_
        change _ = ((cover keywords ps rest).map (v :: ·)).map (taken ++ ·)
        cases cover keywords ps rest <;> simp [Except.map]

/-- Taking the values one by one adapts a call as covering the parameters does. -/
theorem adaptInPlace_eq_adapt (r : Renaming) (s : Signature) (a : Arguments) :
    r.adaptInPlace s a = r.adapt s a := by
  have hwalk := foldlM_pass (r.keywords a.keywords) s.required [] a.positional
  have hinPlace : r.adaptInPlace s a =
      ((s.required.foldlM (Walk.pass (r.keywords a.keywords)) ⟨[], a.positional⟩).map
        (fun walk => walk.taken ++ walk.left)).map (⟨·, r.keywords a.keywords⟩) := by
    unfold adaptInPlace
    simp only
    cases s.required.foldlM (Walk.pass (r.keywords a.keywords)) ⟨[], a.positional⟩ <;> rfl
  rw [hinPlace, hwalk]
  unfold adapt
  simp only
  cases cover (r.keywords a.keywords) s.required a.positional <;> rfl

/-- Covering parameters hands the values on as they are, unless a parameter that no keyword names
stands at the place that is their number. -/
theorem cover_eq (keywords : NameMap Value) (ps : List Parameter) (vs : List Value) :
    cover keywords ps vs = match (ps.filter fun p => p.name ∉ keywords)[vs.length]? with
      | none => .ok vs
      | some p => .error ⟨p.name⟩ := by
  induction ps generalizing vs with
  | nil => rfl
  | cons p ps ih =>
    by_cases hp : p.name ∈ keywords
    · rw [cover_of_mem hp, List.filter_cons_of_neg (by simpa using hp)]
      exact ih vs
    · rw [cover_of_not_mem hp, List.filter_cons_of_pos (by simpa using hp)]
      cases vs with
      | nil => rfl
      | cons v rest =>
        simp only [List.length_cons, List.getElem?_cons_succ, ih rest]
        cases (ps.filter fun p => p.name ∉ keywords)[rest.length]? <;> rfl

/-- Adapting a call hands its values on as they are, unless too few are given. -/
theorem adapt_eq (r : Renaming) (s : Signature) (a : Arguments) :
    r.adapt s a = match (s.unnamed (r.keywords a.keywords))[a.positional.length]? with
      | none => .ok (r.renamed a)
      | some p => .error ⟨p.name⟩ := by
  unfold adapt
  simp only [cover_eq, ← Signature.unnamed_eq_filter_required]
  cases (s.unnamed (r.keywords a.keywords))[a.positional.length]? <;> rfl

/-- A call is adapted exactly if it gives as many values by position as there are required
parameters that no keyword names after renaming, and the values are then handed on as they are: the
same ones in the same order. Otherwise the parameter that is reported is the one of those at the
place that is the number of values given. Taking the values one by one and putting those left over
after them does all of this alike. -/
theorem adapt_counts_values (r : Renaming) (s : Signature) (a : Arguments) :
    (∀ handed, r.adapt s a = .ok handed ↔
      (s.unnamed (r.keywords a.keywords)).length ≤ a.positional.length ∧
        handed.positional = a.positional ∧ handed.keywords = r.keywords a.keywords) ∧
    (∀ e, r.adapt s a = .error e ↔
      ∃ p, (s.unnamed (r.keywords a.keywords))[a.positional.length]? = some p ∧ e = ⟨p.name⟩) ∧
    r.adaptInPlace s a = r.adapt s a := by
  have hadapt := adapt_eq r s a
  refine ⟨fun handed => ?adapted, fun e => ?refused, adaptInPlace_eq_adapt r s a⟩
  case adapted =>
    have hrenamed : r.renamed a = handed ↔
        handed.positional = a.positional ∧ handed.keywords = r.keywords a.keywords := by
      cases handed
      simp [renamed, eq_comm]
    rw [hadapt, ← hrenamed, ← List.getElem?_eq_none_iff]
    cases (s.unnamed (r.keywords a.keywords))[a.positional.length]? <;> simp
  case refused =>
    rw [hadapt]
    cases (s.unnamed (r.keywords a.keywords))[a.positional.length]? <;> simp [eq_comm]

/-- A call that is adapted gives enough values by position. -/
theorem length_unnamed_le (h : r.adapt s a = .ok handed) :
    (s.unnamed handed.keywords).length ≤ handed.positional.length := by
  have hrenamed := adapt_eq_ok h
  rw [adapt_eq] at h
  subst hrenamed
  cases hplace : (s.unnamed (r.keywords a.keywords))[a.positional.length]? with
  | none => exact List.getElem?_eq_none_iff.1 hplace
  | some p => simp [hplace] at h

/-- An adapted call binds if it does not exceed the parameters and no keyword is misplaced. -/
theorem exists_bind_of_adapt (h : r.adapt s a = .ok handed) (hroom : ¬ s.Exceeded handed)
    (hplaced : ∀ k ∈ handed.keywords, ¬ s.Misplaced handed.positional.length k) :
    ∃ b, s.bind handed = .ok b := by
  cases hb : s.bind handed with
  | ok b => exact ⟨b, rfl⟩
  | error e =>
    -- a parameter left empty would be one more to be given by position than there are values
    obtain ⟨i, p, hempty, -⟩ := (Signature.bind_eq_error_of_placed hroom hplaced).1 hb
    obtain ⟨hi, hname, hdefault⟩ := hempty.empty
    have hmore := Signature.lt_length_unnamed (Signature.not_mem_of_not_misplaced hplaced) hi
      hempty.place hdefault hname
    have henough := length_unnamed_le h
    omega

/-- An adapted call binds, or it is refused for too many values by position, for a parameter given
twice or for an unexpected keyword. -/
theorem bind_of_adapt (h : r.adapt s a = .ok handed) :
    (∃ b, s.bind handed = .ok b) ∨
      (∃ expected given, s.bind handed = .error (.tooManyPositional s.name expected given)) ∨
      (∃ param, s.bind handed = .error (.multipleValues s.name param)) ∨
      ∃ keyword, s.bind handed = .error (.unexpectedKeyword s.name keyword) := by
  by_cases hroom : s.Exceeded handed
  · exact .inr (.inl ⟨_, _, Signature.bind_of_exceeded hroom⟩)
  · by_cases hmisplaced : ∃ k ∈ handed.keywords, s.Misplaced handed.positional.length k
    · obtain ⟨k, hk⟩ := Signature.exists_leastMisplaced hmisplaced
      have hb := Signature.bind_of_leastMisplaced hroom hk
      unfold Signature.misplacement at hb
      split at hb
      · exact .inr (.inr (.inl ⟨k, hb⟩))
      · exact .inr (.inr (.inr ⟨k, hb⟩))
    · have hplaced : ∀ k ∈ handed.keywords, ¬ s.Misplaced handed.positional.length k :=
        fun k hk hm => hmisplaced ⟨k, hk, hm⟩
      exact .inl (exists_bind_of_adapt h hroom hplaced)

/-- No argument of an adapted call is missing. -/
theorem bind_ne_missing (h : r.adapt s a = .ok handed) (function param : String) :
    s.bind handed ≠ .error (.missingArgument function param) := by
  rcases bind_of_adapt h with ⟨b, hb⟩ | ⟨_, _, hb⟩ | ⟨_, hb⟩ | ⟨_, hb⟩ <;> simp [hb]

end Renaming

/-- Running the body that a call lets run never ends in a failure to bind: only the call itself
does. -/
theorem settle_ne_binding (run : Runner) (w : World) {found : Except CallError Body} {e : BindError}
    (h : found ≠ .error (.binding e)) : (settle run w found).2 ≠ .error (.binding e) := by
  cases found with
  | error e' =>
    have hsame : (settle run w (.error e')).2 = .error e' := rfl
    intro he
    rw [hsame] at he
    cases he
    exact h rfl
  | ok body =>
    have hrun : (settle run w (.ok body)).2 =
        (run body.method body.receiver body.binding w).2.mapError
          (.method body.method.signature.name) := rfl
    rw [hrun]
    cases (run body.method body.receiver body.binding w).2 <;> simp [Except.mapError]

namespace Delegate

variable {className name : String} {m : Method} {w : World} {active : Option InstanceId}

/-- For the active instance, if there is one, a name means a method. -/
def Means (w : World) (active : Option InstanceId) (name : String) (m : Method) : Prop :=
  ∀ i, active = some i →
    ∃ c, w.classOf? i = some c ∧ w.hierarchy.lookup? c name = some (.method m)

/-- Where its name means the method itself, a delegate of a method with renamed parameters never
hands on a call that misses an argument. -/
theorem resolve_ne_missing (hm : m.renames.isEmpty = false) (hmeans : Means w active name m)
    (a : Arguments) (function param : String) :
    (ofMethod className name m).resolve w active a ≠
      .error (.binding (.missingArgument function param)) := by
  unfold resolve
  rw [prepare_ofMethod_of_renames hm]
  cases hadapt : m.renames.adapt m.signature a with
  | error e => simp [Except.mapError]
  | ok handed =>
    cases active with
    | none => simp [Except.mapError]
    | some i =>
      obtain ⟨c, hi, hn⟩ := hmeans i rfl
      have hbind := Renaming.bind_ne_missing hadapt function param
      have hdirect := World.resolve_of_method hi hn handed
      simp only [Except.mapError, name_ofMethod, hdirect, Method.resolve]
      cases hb : m.signature.bind handed with
      | error e => simpa [hb] using hbind
      | ok b => simp

end Delegate

/-- Arguments that were adapted to a signature miss none of it: they bind, or they are refused for
too many values by position, for a parameter given twice or for an unexpected keyword. So a call of
a delegate of a method with renamed parameters, by itself or through a registry, never fails for a
missing argument as long as its name means that method for the active instance, whatever bodies
do. -/
theorem Renaming.adapt_leaves_none_missing (r : Renaming) (s : Signature) :
    (∀ a handed, r.adapt s a = .ok handed →
      (∀ function param, s.bind handed ≠ .error (.missingArgument function param)) ∧
      ((∃ b, s.bind handed = .ok b) ∨
        (∃ expected given, s.bind handed = .error (.tooManyPositional s.name expected given)) ∨
        (∃ param, s.bind handed = .error (.multipleValues s.name param)) ∨
        ∃ keyword, s.bind handed = .error (.unexpectedKeyword s.name keyword))) ∧
    ∀ m : Method, m.signature = s → m.renames = r → r.isEmpty = false →
      ∀ (className name : String) (w : World) (run : Runner) (a : Arguments)
        (function param : String),
        (∀ active, Delegate.Means w active name m →
          ((Delegate.ofMethod className name m).callVia run w active a).2 ≠
            .error (.binding (.missingArgument function param))) ∧
        ∀ (registry : Registry) (h : ScopeHandle) (scope : Scope) (key : String),
          registry.scope? h = some scope →
          scope.delegate? key = some (.ofMethod className name m) →
          Delegate.Means w scope.active name m →
          (registry.callVia run w h key a).2 ≠
            .error (.call (.binding (.missingArgument function param))) := by
  refine ⟨fun a handed h => ⟨bind_ne_missing h, bind_of_adapt h⟩, ?_⟩
  rintro m rfl rfl hm className name w run a function param
  refine ⟨fun active hmeans => ?delegate, fun registry h scope key hs hd hmeans => ?registry⟩
  case delegate =>
    rw [Delegate.callVia_eq]
    exact settle_ne_binding run w (Delegate.resolve_ne_missing hm hmeans a function param)
  case registry =>
    have hscope : scope.resolve w key a =
        (Delegate.ofMethod className name m).resolve w scope.active a := by
      simp only [Scope.resolve, hd]
    have hcall := (Registry.callVia_eq_of_resolve hs hscope).2 run
    have hresolve : (Delegate.ofMethod className name m).resolve w scope.active a ≠
        .error (.binding (.missingArgument function param)) :=
      Delegate.resolve_ne_missing hm hmeans a function param
    have hsettle := settle_ne_binding run w hresolve
    rw [hcall]
    revert hsettle
    cases (settle run w _).2 <;> simp [Except.mapError]

namespace Delegate

/-- A scope with the delegate of the method with a renamed parameter, and an active instance. -/
def renamedScope : Scope where
  id := ⟨7, 0⟩
  name := "tools"
  delegates := .ofEntries [("fetch", ofMethod "Client" "fetch" renamedMethod)]
  bindings := ∅
  active := some 0

/-- A registry with that scope. -/
def renamedRegistry : Registry := ⟨7, Registry.usualMark, [renamedScope], ∅⟩

/-- Calls of that method, adapted by themselves and made through the registry. -/
theorem adapt_leaves_none_missing_sample :
    renamedMethod.renames.adapt renamedMethod.signature
        ⟨[], .ofEntries [("address", .str "x")]⟩ = .ok ⟨[], .ofEntries [("url", .str "x")]⟩ ∧
      (∀ function param, renamedMethod.signature.bind ⟨[], .ofEntries [("url", .str "x")]⟩ ≠
        .error (.missingArgument function param)) ∧
      renamedRegistry.scope? ⟨7, 0⟩ = some renamedScope ∧
      renamedScope.delegate? "fetch" = some (ofMethod "Client" "fetch" renamedMethod) ∧
      Means renamedWorld renamedScope.active "fetch" renamedMethod ∧
      ∀ run a function param,
        (renamedRegistry.callVia run renamedWorld ⟨7, 0⟩ "fetch" a).2 ≠
          .error (.call (.binding (.missingArgument function param))) := by
  have hadapt : renamedMethod.renames.adapt renamedMethod.signature
      ⟨[], .ofEntries [("address", .str "x")]⟩ = .ok ⟨[], .ofEntries [("url", .str "x")]⟩ := by
    decide +kernel
  have hs : renamedRegistry.scope? ⟨7, 0⟩ = some renamedScope := by decide +kernel
  have hd : renamedScope.delegate? "fetch" = some (ofMethod "Client" "fetch" renamedMethod) := by
    decide +kernel
  have hn : renamedWorld.hierarchy.lookup? 0 "fetch" = some (.method renamedMethod) := rfl
  have hmeans : Means renamedWorld renamedScope.active "fetch" renamedMethod := by
    rintro i hi
    cases hi
    exact ⟨0, rfl, hn⟩
  obtain ⟨hadapted, hcalled⟩ :=
    Renaming.adapt_leaves_none_missing renamedMethod.renames renamedMethod.signature
  refine ⟨hadapt, (hadapted _ _ hadapt).1, hs, hd, hmeans, fun run a function param => ?_⟩
  exact (hcalled renamedMethod rfl rfl rfl "Client" "fetch" renamedWorld run a function param).2
    _ _ _ _ hs hd hmeans

end Delegate

end Delegation
