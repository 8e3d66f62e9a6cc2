import Mathlib.Logic.ExistsUnique
import Mathlib.Logic.Relation
import Delegation.Value.Return
/-!
# Results and plain conversions agree

A native method's result may stand under layers: it is present where it could be
absent, or was produced where there could be an error. Taking off one layer does
not change what the call ends with, so it is decided by what the result is under
all of its layers: an error, an absence, or a result of a type without layers.
Whether the last of these becomes a value is a matter of its type alone, and the
value is the one that its plain conversion gives.

The plain conversions are those of shapes and of the type with one value, with
absence and sequences over any type that values carry. A type of results has one
if it is built by options alone over a type that has one; then it and the
outcome of a call give the same value.
-/

namespace Delegation

namespace ReturnLeaf

/-- The plain conversion of a type without layers. There is none for counts, not all of which fit
the integers that values hold. -/
def conversion? : (l : ReturnLeaf) → Option (l.Carrier → Value)
  | any => some Shape.any.toValue
  | unit => some CarriedType.unit.toValue
  | bool => some Shape.bool.toValue
  | int => some Shape.int.toValue
  | int32 => some Shape.int32.toValue
  | count => none
  | float => some Shape.float.toValue
  | text | fixedText => some Shape.text.toValue
  | list item => some item.list.toValue

/-- A value carries a result of a type without layers: it is what the plain conversion gives, or
the integer equal to a count. -/
inductive CarriedBy : (l : ReturnLeaf) → l.Carrier → Value → Prop where
  /-- What the plain conversion gives. -/
  | converted {l : ReturnLeaf} {f : l.Carrier → Value} (h : l.conversion? = some f)
      (y : l.Carrier) : CarriedBy l y (f y)
  /-- The integer equal to a count. -/
  | count {n : UInt64} {i : Int64} (h : i.toInt = n.toNat) : CarriedBy .count n (.int i)

variable {l : ReturnLeaf}

/-- Where there is a plain conversion, every result becomes what it gives. -/
theorem outcome_of_conversion {f : l.Carrier → Value} (h : l.conversion? = some f)
    (y : l.Carrier) : l.outcome y = .ok (f y) := by
  cases l with
  | count => cases h
  | _ => cases h; rfl

/-- Exactly the counts up to the greatest integer have an integer equal to them, the one they
become. -/
theorem toInt_eq_count_iff {n : UInt64} {i : Int64} :
    i.toInt = n.toNat ↔ n.toNat ≤ greatestInt ∧ i = Int64.ofInt n.toNat := by
  unfold greatestInt
  constructor
  · intro h
    have hlt := i.toInt_lt
    exact ⟨by omega, by rw [← h, Int64.ofInt_toInt]⟩
  · rintro ⟨hle, rfl⟩
    exact Int64.toInt_ofInt_of_le (by omega) (by omega)

/-- A count becomes the integer equal to it, if there is one. -/
theorem outcome_count_eq_ok_iff {n : UInt64} {v : Value} :
    count.outcome n = .ok v ↔ ∃ i : Int64, i.toInt = n.toNat ∧ .int i = v := by
  by_cases hn : n.toNat ≤ greatestInt <;> simp [outcome, toInt_eq_count_iff, hn]

/-- The results of a type without layers become the values that carry them. -/
theorem outcome_eq_ok_iff {y : l.Carrier} {v : Value} : l.outcome y = .ok v ↔ l.CarriedBy y v := by
  constructor
  · intro h
    cases hf : l.conversion? with
    | some f =>
      rw [outcome_of_conversion hf] at h
      cases h
      exact .converted hf y
    | none =>
      -- Counts alone have no plain conversion.
      cases l with
      | count =>
        obtain ⟨i, hi, rfl⟩ := outcome_count_eq_ok_iff.1 h
        exact .count hi
      | _ => cases hf
  · rintro (⟨hf, _⟩ | hi)
    · exact outcome_of_conversion hf y
    · exact outcome_count_eq_ok_iff.2 ⟨_, hi, rfl⟩

end ReturnLeaf

namespace ReturnShape

/-- The plain conversion of a type of results: absence is carried as for any type. There is none
for a type with errors. -/
def conversion? : (r : ReturnShape) → Option (r.Carrier → Value)
  | plain l => l.conversion?
  | option r => r.conversion?.map fun f => (CarriedType.option ⟨r.Carrier, f⟩).toValue
  | result _ _ => none

/-- Where there is a plain conversion, every result becomes what it gives. -/
theorem outcome_of_conversion {r : ReturnShape} {f : r.Carrier → Value}
    (h : r.conversion? = some f) (x : r.Carrier) : r.outcome x = .ok (f x) := by
  induction r with
  | plain l => exact ReturnLeaf.outcome_of_conversion h x
  | option r ih =>
    obtain ⟨g, hg, rfl⟩ := Option.map_eq_some_iff.1 h
    cases x with
    | none => rfl
    | some x => exact ih hg x
  | result => cases h

end ReturnShape

/-- The type of results with the values of a shape. Mappings and options of them are no results. -/
def Shape.returned? : Shape → Option ReturnShape
  | any => some (.plain .any)
  | bool => some (.plain .bool)
  | int => some (.plain .int)
  | int32 => some (.plain .int32)
  | float => some (.plain .float)
  | text => some (.plain .text)
  | map => none
  | option s => s.returned?.map .option
  | list s => some (.plain (.list s.carried))

/-- The plain conversion of results with the values of a shape is that of the shape. -/
theorem Shape.conversion?_of_returned? {s : Shape} {r : ReturnShape} (h : s.returned? = some r) :
    ∃ f, r.conversion? = some f ∧ s.carried = ⟨r.Carrier, f⟩ := by
  induction s generalizing r with
  | map => cases h
  | option s ih =>
    obtain ⟨r, hr, rfl⟩ := Option.map_eq_some_iff.1 h
    obtain ⟨f, hf, hs⟩ := ih hr
    refine ⟨(CarriedType.option ⟨r.Carrier, f⟩).toValue, ?_, ?_⟩
    · rw [ReturnShape.conversion?, hf]
      rfl
    · rw [Shape.carried_option, hs]
  | _ =>
    cases h
    exact ⟨_, rfl, rfl⟩

/-- What a result is under all of its layers. -/
inductive Ending where
  /-- An error, as the cause of a failure. -/
  | error (c : Cause)
  /-- An absence. -/
  | absence
  /-- A result of a type without layers. -/
  | leaf (l : ReturnLeaf) (y : l.Carrier)

namespace Ending

/-- What a call ends with whose native method returns this under any layers. -/
def outcome : Ending → Except Cause Value
  | error c => .error c
  | absence => .ok .none
  | leaf l y => l.outcome y

/-- A call fails with the error, or for a count beyond the integers. -/
theorem outcome_eq_error_iff {e : Ending} {c : Cause} :
    e.outcome = .error c ↔
      e = .error c ∨ c = .countTooLarge ∧ ∃ n : UInt64, e = .leaf .count n ∧
        ReturnLeaf.greatestInt < n.toNat := by
  cases e with
  | error d => simp [outcome]
  | absence => simp [outcome]
  | leaf l y =>
    cases l with
    | count =>
      rcases Nat.lt_or_ge ReturnLeaf.greatestInt y.toNat with hn | hn
      · simp [outcome, ReturnLeaf.outcome, hn, Nat.not_le.2 hn, eq_comm]
      · simp [outcome, ReturnLeaf.outcome, hn]
    | _ => simp [outcome, ReturnLeaf.outcome]

/-- A call succeeds with the absent value for an absence, and otherwise with the value that carries
the result. -/
theorem outcome_eq_ok_iff {e : Ending} {v : Value} :
    e.outcome = .ok v ↔ e = .absence ∧ v = .none ∨ ∃ l y, e = .leaf l y ∧ l.CarriedBy y v := by
  cases e with
  | error d => simp [outcome]
  | absence => simp [outcome, eq_comm]
  | leaf l y =>
    rw [outcome, ReturnLeaf.outcome_eq_ok_iff]
    constructor
    · exact fun h => .inr ⟨l, y, rfl, h⟩
    · rintro (⟨h, -⟩ | ⟨l, y, h, hy⟩)
      · cases h
      · cases h
        exact hy

end Ending

/-- A result with its type. -/
structure TypedResult where
  /-- The type. -/
  type : ReturnShape
  /-- The result. -/
  value : type.Carrier

namespace TypedResult

/-- What a call ends with when its native method returns this. -/
def outcome (p : TypedResult) : Except Cause Value := p.type.outcome p.value

/-- One layer is taken off: a present result becomes what is present, and a produced one what was
produced. -/
inductive Sheds : TypedResult → TypedResult → Prop where
  /-- The result is present. -/
  | present {r : ReturnShape} (x : r.Carrier) : Sheds ⟨.option r, some x⟩ ⟨r, x⟩
  /-- The result was produced. -/
  | produced {ε : Type} (cause : ε → Cause) {r : ReturnShape} (x : r.Carrier) :
      Sheds ⟨.result cause r, .ok x⟩ ⟨r, x⟩

/-- What a result is that has no layer left to be taken off. -/
inductive EndsAs : TypedResult → Ending → Prop where
  /-- An error of its type. -/
  | error {ε : Type} (cause : ε → Cause) (r : ReturnShape) (e : ε) :
      EndsAs ⟨.result cause r, .error e⟩ (.error (cause e))
  /-- An absence. -/
  | absence (r : ReturnShape) : EndsAs ⟨.option r, none⟩ .absence
  /-- A result of a type without layers. -/
  | leaf (l : ReturnLeaf) (y : l.Carrier) : EndsAs ⟨.plain l, y⟩ (.leaf l y)

/-- Taking off layers one after the other comes to what a result is under all of them. -/
def Reaches (p : TypedResult) (e : Ending) : Prop :=
  ∃ q, Relation.ReflTransGen Sheds p q ∧ q.EndsAs e

variable {p q : TypedResult} {e : Ending}

/-- Taking off a layer leaves the outcome as it was. -/
theorem Sheds.outcome_eq (h : p.Sheds q) : p.outcome = q.outcome := by
  cases h <;> rfl

/-- Only one result is left when a layer is taken off. -/
theorem Sheds.rightUnique : Relator.RightUnique Sheds := by
  intro p q q' h h'
  cases h <;> cases h' <;> rfl

/-- From a result without layers none is taken off. -/
theorem EndsAs.not_sheds (h : p.EndsAs e) : ¬ p.Sheds q := by
  intro hq
  cases h <;> cases hq

/-- A result without layers is one thing only. -/
theorem EndsAs.unique {e' : Ending} (h : p.EndsAs e) (h' : p.EndsAs e') : e = e' := by
  cases h <;> cases h' <;> rfl

/-- A result without layers becomes what its end does. -/
theorem EndsAs.outcome_eq (h : p.EndsAs e) : p.outcome = e.outcome := by
  cases h <;> rfl

/-- However many layers are taken off, the outcome stays what it is. -/
theorem Reaches.outcome_eq (h : p.Reaches e) : p.outcome = e.outcome := by
  obtain ⟨q, hpq, hq⟩ := h
  induction hpq using Relation.ReflTransGen.head_induction_on with
  | refl => exact hq.outcome_eq
  | head hstep _ ih => rw [hstep.outcome_eq, ih]

/-- A result without layers is at its end. -/
theorem EndsAs.reaches (h : p.EndsAs e) : p.Reaches e := ⟨p, .refl, h⟩

/-- A result with one more layer comes to the same end. -/
theorem Sheds.reaches (h : p.Sheds q) (hq : q.Reaches e) : p.Reaches e := by
  obtain ⟨bare, hpath, hend⟩ := hq
  exact ⟨bare, .head h hpath, hend⟩

/-- Every result comes to an end. -/
theorem exists_reaches (r : ReturnShape) (x : r.Carrier) : ∃ e, Reaches ⟨r, x⟩ e := by
  induction r with
  | plain l => exact ⟨_, (EndsAs.leaf l x).reaches⟩
  | option r ih =>
    cases x with
    | none => exact ⟨_, (EndsAs.absence r).reaches⟩
    | some x => exact (ih x).imp fun _ => (Sheds.present x).reaches
  | result cause r ih =>
    cases x with
    | error e => exact ⟨_, (EndsAs.error cause r e).reaches⟩
    | ok x => exact (ih x).imp fun _ => (Sheds.produced cause x).reaches

/-- No result comes to two ends. -/
theorem Reaches.unique {e' : Ending} (h : p.Reaches e) (h' : p.Reaches e') : e = e' := by
  obtain ⟨q, hq, hend⟩ := h
  obtain ⟨q', hq', hend'⟩ := h'
  -- Of two ways down from one result the longer goes on where the other stops.
  have hsame : q' = q := by
    rcases Relation.ReflTransGen.total_of_right_unique Sheds.rightUnique hq hq' with hon | hon
    · exact (Relation.reflTransGen_iff_eq fun _ => hend.not_sheds).1 hon
    · exact ((Relation.reflTransGen_iff_eq fun _ => hend'.not_sheds).1 hon).symm
  subst hsame
  exact hend.unique hend'

end TypedResult

namespace ReturnShape

open TypedResult

/-- Taking the layers off a result comes to exactly one end. A call fails exactly if that is an
error, with this error, or a count beyond the greatest integer. It succeeds exactly if it is an
absence, with the absent value, or any other result of a type without layers, with the value that
its plain conversion gives, or with the integer equal to a count. Where the type of results itself
has a plain conversion, the call ends with what that gives; and for the results with the values of
a shape it is the conversion of the shape. -/
theorem outcome_agrees_with_conversion (r : ReturnShape) (x : r.Carrier) :
    (∃! e, Reaches ⟨r, x⟩ e) ∧
    (∀ c, r.outcome x = .error c ↔
      Reaches ⟨r, x⟩ (.error c) ∨ c = .countTooLarge ∧
        ∃ n : UInt64, Reaches ⟨r, x⟩ (.leaf .count n) ∧ ReturnLeaf.greatestInt < n.toNat) ∧
    (∀ v, r.outcome x = .ok v ↔
      Reaches ⟨r, x⟩ .absence ∧ v = .none ∨ ∃ l y, Reaches ⟨r, x⟩ (.leaf l y) ∧ l.CarriedBy y v) ∧
    (∀ f, r.conversion? = some f → r.outcome x = .ok (f x)) ∧
    ∀ s : Shape, s.returned? = some r →
      ∃ f, s.carried = ⟨r.Carrier, f⟩ ∧ r.outcome x = .ok (f x) := by
  obtain ⟨e, he⟩ := exists_reaches r x
  have hreaches : ∀ e', Reaches ⟨r, x⟩ e' ↔ e = e' := fun e' =>
    ⟨he.unique, fun h => h ▸ he⟩
  have houtcome : r.outcome x = e.outcome := he.outcome_eq
  refine ⟨⟨e, he, fun e' he' => he'.unique he⟩, fun c => ?fails, fun v => ?succeeds,
    fun f hf => outcome_of_conversion hf x, fun s hs => ?shape⟩
  case fails => simp only [houtcome, hreaches, Ending.outcome_eq_error_iff]
  case succeeds => simp only [houtcome, hreaches, Ending.outcome_eq_ok_iff]
  case shape =>
    obtain ⟨f, hf, hcarried⟩ := Shape.conversion?_of_returned? hs
    exact ⟨f, hcarried, outcome_of_conversion hf x⟩

/-- A count under three layers: the error of the middle one, the absence of the inner one, a count
that fits and one that does not. Characters, which no shape stands for, are carried as texts. An
option of options and a sequence of options become what their shapes carry them as. -/
theorem outcome_agrees_with_conversion_sample :
    (option (result Cause.call (option (plain .count)))).outcome
        (some (.error (.unknownName "tools" "level"))) =
      .error (.call (.unknownName "tools" "level")) ∧
    (option (result Cause.call (option (plain .count)))).outcome (some (.ok none)) = .ok .none ∧
    (option (result Cause.call (option (plain .count)))).outcome (some (.ok (some 7))) =
      .ok (.int 7) ∧
    (option (result Cause.call (option (plain .count)))).outcome
        (some (.ok (some 9223372036854775808))) = .error .countTooLarge ∧
    (plain (.list ⟨Char, fun c => .str (.singleton c)⟩)).outcome ['a', 'b'] =
      .ok (.list [.str (.singleton 'a'), .str (.singleton 'b')]) ∧
    (option (option (plain .int))).outcome (some none) =
      .ok ((Shape.option (.option .int)).toValue (some none)) ∧
    (plain (.list (Shape.option .text).carried)).outcome [some "a", none] =
      .ok ((Shape.list (.option .text)).toValue [some "a", none]) := by
  refine ⟨?failed, ?absent, ?fits, ?large, ?characters, ?option, ?list⟩
  case failed =>
    refine ((outcome_agrees_with_conversion _ _).2.1 _).2 (.inl ?_)
    exact (Sheds.present _).reaches (EndsAs.error _ _ _).reaches
  case absent =>
    refine ((outcome_agrees_with_conversion _ _).2.2.1 _).2 (.inl ⟨?_, rfl⟩)
    exact (Sheds.present _).reaches ((Sheds.produced _ _).reaches (EndsAs.absence _).reaches)
  case fits =>
    refine ((outcome_agrees_with_conversion _ _).2.2.1 _).2 (.inr ⟨.count, 7, ?_, ?_⟩)
    · exact (Sheds.present _).reaches <| (Sheds.produced _ _).reaches <|
        (Sheds.present _).reaches (EndsAs.leaf _ _).reaches
    · exact .count (by decide)
  case large =>
    refine ((outcome_agrees_with_conversion _ _).2.1 _).2
      (.inr ⟨rfl, 9223372036854775808, ?_, by decide⟩)
    exact (Sheds.present _).reaches <| (Sheds.produced _ _).reaches <|
      (Sheds.present _).reaches (EndsAs.leaf _ _).reaches
  case characters =>
    have hconverts := (outcome_agrees_with_conversion
      (plain (.list ⟨Char, fun c => .str (.singleton c)⟩)) ['a', 'b']).2.2.2.1
    exact hconverts _ rfl
  case option =>
    obtain ⟨f, hf, houtcome⟩ :=
      (outcome_agrees_with_conversion _ _).2.2.2.2 (.option (.option .int)) rfl
    cases hf
    exact houtcome
  case list =>
    obtain ⟨f, hf, houtcome⟩ :=
      (outcome_agrees_with_conversion _ _).2.2.2.2 (.list (.option .text)) rfl
    cases hf
    exact houtcome

end ReturnShape

end Delegation
