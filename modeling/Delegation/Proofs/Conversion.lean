import Delegation.Value.Shape
/-!
# Conversions there and back

What a shape reads it carries back unchanged, but for one thing: an integer read
where a floating point number is wanted comes back as that number. `Shape.widen`
does only this to a value, at the places where the shape has a floating point
number, so a shape without one gives back the very value it read. The other way
round nothing is lost as long as no absence is hidden: a shape that may be absent
must not stand over one whose values may be carried by the absent value already.
A sequence is read by `mapM`, so the first item that cannot be read decides.
-/

namespace Delegation

section Traversal

variable {α β ε : Type} (f : α → Except ε β)

/-- A traversal succeeds when every step does, and collects what the steps gave. -/
theorem mapM_eq_ok_iff (xs : List α) (ys : List β) :
    xs.mapM f = .ok ys ↔ xs.map f = ys.map .ok := by
  induction xs generalizing ys with
  | nil => cases ys <;> simp [pure, Except.pure]
  | cons x xs ih =>
    rw [List.mapM_cons]
    cases ys with
    | nil => cases f x <;> cases xs.mapM f <;> simp [bind, Except.bind, pure, Except.pure]
    | cons y ys =>
      have hstep : (f x >>= fun y => xs.mapM f >>= fun ys => pure (y :: ys)) = .ok (y :: ys) ↔
          f x = .ok y ∧ xs.mapM f = .ok ys := by
        cases f x <;> cases xs.mapM f <;> simp [bind, Except.bind, pure, Except.pure]
      rw [hstep, ih]
      simp

/-- A traversal fails with the error of the first step that fails. -/
theorem mapM_eq_error_iff (xs : List α) (e : ε) :
    xs.mapM f = .error e ↔
      ∃ before x after, xs = before ++ x :: after ∧ (∀ u ∈ before, ∃ y, f u = .ok y) ∧
        f x = .error e := by
  induction xs with
  | nil => simp [pure, Except.pure]
  | cons x xs ih =>
    rw [List.mapM_cons]
    cases hx : f x with
    | error e' =>
      constructor
      · intro h
        exact ⟨[], x, xs, rfl, by simp, by simpa [bind, Except.bind, hx] using h⟩
      · rintro ⟨_ | ⟨u, before⟩, y, after, hsplit, hbefore, hy⟩
        · obtain ⟨rfl, rfl⟩ := List.cons.inj hsplit
          simpa [bind, Except.bind, hx] using hy
        · obtain ⟨rfl, -⟩ := List.cons.inj hsplit
          obtain ⟨z, hz⟩ := hbefore x (List.mem_cons_self ..)
          simp [hx] at hz
    | ok y =>
      have hstep : (f x >>= fun y => xs.mapM f >>= fun ys => pure (y :: ys)) = .error e ↔
          xs.mapM f = .error e := by
        rw [hx]
        cases xs.mapM f <;> simp [bind, Except.bind, pure, Except.pure]
      rw [← hx, hstep, ih]
      constructor
      · rintro ⟨before, u, after, rfl, hbefore, hu⟩
        exact ⟨x :: before, u, after, rfl, by simpa [hx] using hbefore, hu⟩
      · rintro ⟨_ | ⟨u, before⟩, v, after, hsplit, hbefore, hv⟩
        · obtain ⟨rfl, rfl⟩ := List.cons.inj hsplit
          simp [hx] at hv
        · obtain ⟨rfl, rfl⟩ := List.cons.inj hsplit
          exact ⟨before, v, after, rfl, fun u hu => hbefore u (List.mem_cons_of_mem _ hu), hv⟩

end Traversal

namespace Shape

/-- A value with each integer at a place of a floating point number replaced by the number nearest
to it. -/
def widen : Shape → Value → Value
  | float, .int i => .float (.ofInt i.toInt)
  | option s, v => s.widen v
  | list s, .list items => .list (items.map s.widen)
  | _, v => v

/-- Whether floating point numbers occur in a shape. -/
def hasFloat : Shape → Bool
  | float => true
  | option s | list s => s.hasFloat
  | _ => false

/-- Whether some typed value of a shape is carried by the absent value. -/
def carriesNone : Shape → Bool
  | any | option _ => true
  | _ => false

/-- Whether absence is told apart everywhere in a shape: what may be absent is never carried by the
absent value itself. -/
def tellsAbsence : Shape → Bool
  | option s => !s.carriesNone && s.tellsAbsence
  | list s => s.tellsAbsence
  | _ => true

/-- The absent value is nowhere widened. -/
@[simp] theorem widen_none (s : Shape) : s.widen .none = .none := by
  induction s with
  | option s ih => exact ih
  | _ => rfl

/-- Without floating point numbers nothing is widened. -/
theorem widen_of_no_float (s : Shape) (h : s.hasFloat = false) (v : Value) : s.widen v = v := by
  induction s generalizing v with
  | float => cases h
  | option s ih => exact ih h v
  | list s ih =>
    cases v with
    | list items => simp only [widen, List.map_congr_left fun u _ => ih h u, List.map_id']
    | _ => rfl
  | _ => rfl

/-- A value that is not absent is read where something may be absent as it is read otherwise. -/
theorem ofValue_option {v : Value} (s : Shape) (h : v ≠ .none) :
    (option s).ofValue v = (s.ofValue v).map some := by
  cases v <;> first | rfl | exact absurd rfl h

/-- What items were read as is carried back item by item. -/
theorem map_toValue_of_ofValue {s : Shape}
    (hs : ∀ v x, s.ofValue v = .ok x → s.toValue x = s.widen v) {items : List Value}
    {xs : List s.Carrier} (h : items.map s.ofValue = xs.map .ok) :
    xs.map s.toValue = items.map s.widen := by
  induction items generalizing xs with
  | nil => cases xs <;> simp_all
  | cons v vs ih =>
    cases xs with
    | nil => simp at h
    | cons x xs =>
      obtain ⟨hv, hvs⟩ := List.cons.inj h
      rw [List.map_cons, List.map_cons, hs v x hv, ih hvs]

/-- What was read is carried back as the value it was read from, integers at the places of floating
point numbers widened. -/
theorem toValue_of_ofValue (s : Shape) (v : Value) (x : s.Carrier) (h : s.ofValue v = .ok x) :
    s.toValue x = s.widen v := by
  induction s generalizing v with
  | any => simp_all [ofValue, toValue, widen]
  | bool | int | float | text | map => cases v <;> simp_all [ofValue, toValue, widen]
  | int32 =>
    cases v with
    | int i =>
      simp only [ofValue] at h
      split at h
      · rename_i hi
        cases h
        simp only [toValue, widen, hi]
      · cases h
    | _ => cases h
  | option s ih =>
    by_cases hv : v = .none
    · subst hv
      cases h
      simp [toValue]
    · rw [ofValue_option s hv] at h
      cases hs : s.ofValue v with
      | error e => simp [hs, Except.map] at h
      | ok y =>
        obtain rfl : some y = x := by simpa [hs, Except.map] using h
        exact ih v y hs
  | list s ih =>
    cases v with
    | list items =>
      have hmap : items.map s.ofValue = x.map .ok := (mapM_eq_ok_iff s.ofValue items x).mp h
      rw [toValue_list, widen, map_toValue_of_ofValue ih hmap]
    | _ => cases h

/-- A shape none of whose values is carried by the absent value does not carry one so. -/
theorem toValue_ne_none {s : Shape} (h : s.carriesNone = false) (x : s.Carrier) :
    s.toValue x ≠ .none := by
  cases s <;> simp_all [carriesNone, toValue]

/-- Otherwise some typed value is. -/
theorem exists_toValue_eq_none {s : Shape} (h : s.carriesNone = true) :
    ∃ x : s.Carrier, s.toValue x = .none := by
  cases s with
  | any => exact ⟨Value.none, rfl⟩
  | option s => exact ⟨none, rfl⟩
  | _ => cases h

/-- The absent value is read as an absence, so a present value that it carries is lost. -/
theorem ofValue_toValue_ne {s : Shape} {x : s.Carrier} (h : s.toValue x = .none) :
    (option s).ofValue ((option s).toValue (some x)) ≠ .ok (some x) := by
  rw [toValue, h, ofValue_option_none]
  simp

/-- What was carried over is read back, exactly where absence is told apart. -/
theorem tellsAbsence_iff (s : Shape) :
    s.tellsAbsence = true ↔ ∀ x, s.ofValue (s.toValue x) = .ok x := by
  induction s with
  | any | bool | int | float | text | map => exact iff_of_true rfl fun _ => rfl
  | int32 =>
    refine iff_of_true rfl fun x => ?_
    simp [ofValue, toValue]
  | option s ih =>
    cases hnone : s.carriesNone with
    | true =>
      -- The witness is a present value that looks like an absence.
      obtain ⟨x, hx⟩ := exists_toValue_eq_none hnone
      refine iff_of_false (by simp [tellsAbsence, hnone]) fun h => ?_
      exact ofValue_toValue_ne hx (h (some x))
    | false =>
      have hsome : ∀ x, (option s).ofValue ((option s).toValue (some x)) =
          (s.ofValue (s.toValue x)).map some :=
        fun x => ofValue_option s (toValue_ne_none hnone x)
      simp only [tellsAbsence, hnone, Bool.not_false, Bool.true_and, ih]
      constructor
      · rintro h (_ | x)
        · rfl
        · rw [hsome, h x]; rfl
      · intro h x
        have hx := h (some x)
        rw [hsome] at hx
        cases hs : s.ofValue (s.toValue x) with
        | error e => simp [hs, Except.map] at hx
        | ok y => simpa [hs, Except.map] using hx
  | list s ih =>
    have hlist : ∀ xs, (list s).ofValue ((list s).toValue xs) = .ok xs ↔
        ∀ x ∈ xs, s.ofValue (s.toValue x) = .ok x := fun xs => by
      rw [toValue_list, ofValue_list, mapM_eq_ok_iff, List.map_map, List.map_inj_left]
      rfl
    rw [tellsAbsence, ih]
    constructor
    · exact fun h xs => (hlist xs).mpr fun x _ => h x
    · exact fun h x => (hlist [x]).mp (h [x]) x (List.mem_singleton_self x)

/-- What a shape reads it carries back as it was, but for integers at the places of floating point
numbers, which come back as the numbers they were read as; and as it was without exception if the
shape has no floating point numbers. What it carries over it reads back, exactly if no option in it
stands over a shape that carries the absent value itself. And a sequence cannot be read exactly if
one of its items cannot; the first such item, all before it being readable, gives the error. -/
theorem conversion_round_trips (s : Shape) :
    (∀ v x, s.ofValue v = .ok x →
      s.toValue x = s.widen v ∧ (s.hasFloat = false → s.toValue x = v)) ∧
    (s.tellsAbsence = true ↔ ∀ x, s.ofValue (s.toValue x) = .ok x) ∧
    ∀ items e, (list s).ofValue (.list items) = .error e ↔
      ∃ before v after, items = before ++ v :: after ∧ (∀ u ∈ before, ∃ x, s.ofValue u = .ok x) ∧
        s.ofValue v = .error e := by
  refine ⟨fun v x h => ?read, s.tellsAbsence_iff, fun items e => ?first⟩
  case read =>
    have hback : s.toValue x = s.widen v := s.toValue_of_ofValue v x h
    exact ⟨hback, fun hs => hback.trans (s.widen_of_no_float hs v)⟩
  case first => rw [ofValue_list, mapM_eq_error_iff]

/-- Optional numbers read from an integer and an absence, and integers of which the second cannot
be read. -/
theorem conversion_round_trips_sample :
    (list (option float)).toValue [some (.ofInt 3), none] =
        (list (option float)).widen (.list [.int 3, .none]) ∧
      (list (option float)).ofValue ((list (option float)).toValue [some (.ofInt 3), none]) =
        .ok [some (.ofInt 3), none] ∧
      (list int).ofValue (.list [.int 1, .str "x", .none]) =
        .error (mismatch "int" (.str "x")) := by
  obtain ⟨hread, htold, -⟩ := (list (option float)).conversion_round_trips
  refine ⟨(hread (.list [.int 3, .none]) _ rfl).1, htold.mp rfl _, ?_⟩
  refine (int.conversion_round_trips.2.2 _ _).mpr ⟨[.int 1], .str "x", [.none], rfl, ?_, rfl⟩
  simp [ofValue]

end Shape

end Delegation
