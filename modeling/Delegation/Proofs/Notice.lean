import Delegation.Proofs.Registry
/-!
# What a registry does on being told of a member

The name is published again for every registered class at or below the one
that gained it, in every scope of that class's registration. The registrations
are visited one after the other, in an order that is left open. A hidden name
changes nothing.
-/

namespace Delegation

namespace Registry

variable (w : World) (c : ClassId) (name : String)

/-- What is done for one registration when a class gained a member. -/
def republish (r : Registry) (e : ClassId × Registration) : Registry :=
  if w.hierarchy.isSubclass e.1 c then r.updateRegistered e.1 e.2 (Scope.publish w e.1 name)
  else r

/-- The classes of some registrations that are at or below a class and registered into one scope,
in order. -/
def visited (entries : List (ClassId × Registration)) (k : Nat) : List ClassId :=
  (entries.filter fun e =>
    w.hierarchy.isSubclass e.1 c && decide (k ∈ e.2.scopes.map (·.index))).map (·.1)

variable {w c name}

/-- A class is visited if it is at or below the other one and registered there. -/
theorem mem_visited {entries : List (ClassId × Registration)} {k : Nat} {d : ClassId} :
    d ∈ visited w c entries k ↔ w.hierarchy.isSubclass d c = true ∧
      ∃ reg, (d, reg) ∈ entries ∧ k ∈ reg.scopes.map (·.index) := by
  unfold visited
  rw [List.mem_map]
  constructor
  · rintro ⟨⟨d, reg⟩, he, rfl⟩
    rw [List.mem_filter, Bool.and_eq_true, decide_eq_true_iff] at he
    exact ⟨he.2.1, reg, he.1, he.2.2⟩
  · rintro ⟨hsub, reg, he, hk⟩
    refine ⟨(d, reg), ?_, rfl⟩
    rw [List.mem_filter, Bool.and_eq_true, decide_eq_true_iff]
    exact ⟨he, hsub, hk⟩

/-- One registration is republished in its scopes. -/
theorem getElem?_scopes_republish (r : Registry) (e : ClassId × Registration) (k : Nat) :
    (republish w c name r e).scopes[k]? = r.scopes[k]?.map fun s =>
      (visited w c [e] k).foldl (fun s d => Scope.place w d s name) s := by
  unfold republish visited
  by_cases hsub : w.hierarchy.isSubclass e.1 c = true
  · have hplace : ∀ exposed (s : Scope), True → True ∧
        (Scope.publish w e.1 name exposed s).2 = Scope.place w e.1 s name := fun exposed s _ =>
      ⟨trivial, by rw [Scope.publish_eq]⟩
    rw [if_pos hsub, getElem?_scopes_updateRegistered (fun _ => True) hplace
      (fun s => Scope.place_place w e.1 s name) r e.1 trivial k]
    by_cases hk : k ∈ e.2.scopes.map (·.index)
    · rw [if_pos hk, List.filter_cons_of_pos (by rw [hsub, decide_eq_true hk]; rfl)]
      rfl
    · rw [if_neg hk, List.filter_cons_of_neg (by rw [decide_eq_false hk, Bool.and_false]; simp)]
      exact Option.map_id'.symm
  · rw [if_neg hsub, List.filter_cons_of_neg (by rw [Bool.not_eq_true] at hsub; simp [hsub])]
    exact Option.map_id'.symm

/-- Republishing registrations one after the other publishes the name in every scope for each
class visited there, in order. -/
theorem getElem?_scopes_foldl_republish (entries : List (ClassId × Registration)) (r : Registry)
    (k : Nat) : (entries.foldl (republish w c name) r).scopes[k]? =
      r.scopes[k]?.map fun s =>
        (visited w c entries k).foldl (fun s d => Scope.place w d s name) s := by
  induction entries generalizing r with
  | nil => simp [visited]
  | cons e entries ih =>
    have happend : visited w c (e :: entries) k = visited w c [e] k ++ visited w c entries k := by
      simp only [visited, ← List.map_append, ← List.filter_append]
      rfl
    rw [List.foldl_cons, ih, getElem?_scopes_republish, happend]
    simp only [List.foldl_append, Option.map_map]
    rfl

/-- Republishing registrations of a registry keeps its layout. -/
theorem Layout.foldl_republish {r r' : Registry} (h : Layout r r')
    {entries : List (ClassId × Registration)}
    (hall : ∀ e ∈ entries, r.registration? e.1 = some e.2) :
    Layout r (entries.foldl (republish w c name) r') := by
  induction entries generalizing r' with
  | nil => exact h
  | cons e entries ih =>
    rw [List.foldl_cons]
    refine ih ?_ fun e' he' => hall e' (List.mem_cons_of_mem _ he')
    unfold republish
    split
    · exact h.updateRegistered (hall e List.mem_cons_self) _
    · exact h

/-- Republishing one registration counts the name as exposed or not for its class, if that is at or
below the one that gained the name. -/
theorem registration?_republish {r r' : Registry} (hr : Sound r) (h : Layout r r')
    {e : ClassId × Registration} (he : r.registration? e.1 = some e.2) (d : ClassId) :
    (republish w c name r' e).registration? d =
      if w.hierarchy.isSubclass d c = true ∧ d = e.1 then
        (r.registration? d).map fun reg =>
          { reg with exposed := w.hierarchy.exposing d reg.exposed name }
      else r'.registration? d := by
  unfold republish
  by_cases hsub : w.hierarchy.isSubclass e.1 c = true
  · have hchange : ∀ exposed s, (Scope.publish w e.1 name exposed s).1 =
        w.hierarchy.exposing e.1 exposed name := fun exposed s => by rw [Scope.publish_eq]
    have hlt : ∀ k ∈ e.2.scopes, k.index < r'.scopes.length := fun k hk =>
      h.length.symm ▸ (hr.issued e.1 e.2 he k hk).2
    have hexposed : (e.2.scopes.foldl (updateScope (Scope.publish w e.1 name))
        (e.2.exposed, r'.scopes)).1 = w.hierarchy.exposing e.1 e.2.exposed name :=
      exposed_foldl_updateScope _ hchange
        (fun exposed => w.hierarchy.exposing_exposing e.1 exposed name)
        (hr.nonempty e.1 e.2 he) hlt
    rw [if_pos hsub, registration?_updateRegistered, hexposed]
    by_cases hd : d = e.1
    · subst hd
      rw [if_pos rfl, if_pos ⟨hsub, rfl⟩, he]
      rfl
    · rw [if_neg hd, if_neg fun hboth => hd hboth.2]
  · have hnot : ¬ (w.hierarchy.isSubclass d c = true ∧ d = e.1) := by
      rintro ⟨hd, rfl⟩
      exact hsub hd
    rw [if_neg hsub, if_neg hnot]

/-- Republishing registrations of a registry counts the name as exposed or not for each of the
classes at or below the one that gained it. -/
theorem registration?_foldl_republish {r r' : Registry} (hr : Sound r) (h : Layout r r')
    {entries : List (ClassId × Registration)}
    (hall : ∀ e ∈ entries, r.registration? e.1 = some e.2) (d : ClassId) :
    (entries.foldl (republish w c name) r').registration? d =
      if w.hierarchy.isSubclass d c = true ∧ d ∈ entries.map (·.1) then
        (r.registration? d).map fun reg =>
          { reg with exposed := w.hierarchy.exposing d reg.exposed name }
      else r'.registration? d := by
  induction entries generalizing r' with
  | nil => simp
  | cons e entries ih =>
    have he := hall e List.mem_cons_self
    have hrest : ∀ e' ∈ entries, r.registration? e'.1 = some e'.2 := fun e' he' =>
      hall e' (List.mem_cons_of_mem _ he')
    have hone : ∀ e' ∈ [e], r.registration? e'.1 = some e'.2 := fun e' he' =>
      List.mem_singleton.1 he' ▸ he
    have hnext : Layout r (republish w c name r' e) := h.foldl_republish hone
    rw [List.foldl_cons, ih hnext hrest, registration?_republish hr h he]
    simp only [List.map_cons, List.mem_cons]
    -- the last visit of a class decides, and every visit of it comes to the same
    by_cases hlater : w.hierarchy.isSubclass d c = true ∧ d ∈ entries.map (·.1)
    · rw [if_pos hlater, if_pos ⟨hlater.1, .inr hlater.2⟩]
    · rw [if_neg hlater]
      by_cases hnow : w.hierarchy.isSubclass d c = true ∧ d = e.1
      · rw [if_pos hnow, if_pos ⟨hnow.1, .inl hnow.2⟩]
      · rw [if_neg hnow, if_neg]
        rintro ⟨hsub, hd | hmem⟩
        · exact hnow ⟨hsub, hd⟩
        · exact hlater ⟨hsub, hmem⟩

variable {order : List (ClassId × Registration)}

/-- What is visited is registered. -/
theorem registration?_of_mem {r : Registry} (each : order.Perm r.registrations.toList) :
    ∀ e ∈ order, r.registration? e.1 = some e.2 := fun _ he =>
  Std.ExtTreeMap.mem_toList_iff_getElem?_eq_some.1 (each.mem_iff.1 he)

/-- What is registered is visited. -/
theorem mem_of_registration? {r : Registry} (each : order.Perm r.registrations.toList)
    {d : ClassId} {reg : Registration} (hd : r.registration? d = some reg) : (d, reg) ∈ order :=
  each.mem_iff.2 (Std.ExtTreeMap.mem_toList_iff_getElem?_eq_some.2 hd)

/-- In a scope, the classes visited are those registered there that are at or below the one that
gained the name. -/
theorem mem_visited_iff_hosts {r : Registry} (each : order.Perm r.registrations.toList) {k : Nat}
    {d : ClassId} :
    d ∈ visited w c order k ↔ w.hierarchy.isSubclass d c = true ∧ r.Hosts d k := by
  rw [mem_visited]
  refine and_congr_right fun _ => ⟨?_, ?_⟩
  · rintro ⟨reg, hreg, hk⟩
    exact ⟨reg, registration?_of_mem each _ hreg, hk⟩
  · rintro ⟨reg, hreg, hk⟩
    exact ⟨reg, mem_of_registration? each hreg, hk⟩

/-- What being told of a new member does, where the registrations are visited in any order. -/
def notifyIn (r : Registry) (order : List (ClassId × Registration)) (w : World) (c : ClassId)
    (name : String) : Registry :=
  if r.isPublic name then order.foldl (republish w c name) r else r

/-- A registry visits its registrations in the order in which their classes were declared. -/
theorem notify_eq (r : Registry) (w : World) (c : ClassId) (name : String) :
    r.notify w c name = r.notifyIn r.registrations.toList w c name := rfl

/-- A public name is republished for every registration. -/
theorem notifyIn_of_isPublic {r : Registry} (h : r.isPublic name = true) :
    r.notifyIn order w c name = order.foldl (republish w c name) r := if_pos h

/-- A hidden name changes nothing. -/
theorem notifyIn_of_hidden {r : Registry} (h : ¬ r.isPublic name = true) :
    r.notifyIn order w c name = r := if_neg h

/-- Publishing a member again keeps the layout. -/
theorem layout_notifyIn {r : Registry} (each : order.Perm r.registrations.toList) (w : World)
    (c : ClassId) (name : String) : Layout r (r.notifyIn order w c name) := by
  by_cases h : r.isPublic name = true
  · rw [notifyIn_of_isPublic h]
    exact (Layout.refl r).foldl_republish (registration?_of_mem each)
  · rw [notifyIn_of_hidden h]
    exact .refl r

/-- What a scope becomes when a class gained a public member. -/
theorem getElem?_scopes_notifyIn {r : Registry} (h : r.isPublic name = true) (k : Nat) :
    (r.notifyIn order w c name).scopes[k]? = r.scopes[k]?.map fun s =>
      (visited w c order k).foldl (fun s d => Scope.place w d s name) s := by
  rw [notifyIn_of_isPublic h, getElem?_scopes_foldl_republish]

/-- What a registration becomes when a class gained a public member. -/
theorem registration?_notifyIn {r : Registry} (hr : Sound r)
    (each : order.Perm r.registrations.toList) (h : r.isPublic name = true) (d : ClassId) :
    (r.notifyIn order w c name).registration? d =
      (r.registration? d).map fun reg =>
        if w.hierarchy.isSubclass d c = true then
          { reg with exposed := w.hierarchy.exposing d reg.exposed name }
        else reg := by
  rw [notifyIn_of_isPublic h,
    registration?_foldl_republish hr (.refl r) (registration?_of_mem each)]
  cases hd : r.registration? d with
  | none => simp
  | some reg =>
    have hmem : d ∈ order.map (·.1) :=
      List.mem_map.2 ⟨(d, reg), mem_of_registration? each hd, rfl⟩
    by_cases hsub : w.hierarchy.isSubclass d c = true
    · rw [if_pos ⟨hsub, hmem⟩, Option.map_some, Option.map_some, if_pos hsub]
    · rw [if_neg fun h => hsub h.1, Option.map_some, if_neg hsub]

end Registry

end Delegation
