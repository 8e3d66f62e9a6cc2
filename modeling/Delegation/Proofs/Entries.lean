import Std.Data.ExtTreeMap
/-!
# Maps that are filled in place

What is put under a key takes the place of what stood there, and what stands
under the other keys is left alone. A key can be given a place first, with
something in it that stands for nothing, and its entry after: that comes to the
same as putting the entry there at once, and a key that has a place keeps it as
it is.
-/

namespace Delegation.Entries

variable {α β : Type} {cmp : α → α → Ordering} [Std.TransCmp cmp] [Std.LawfulEqCmp cmp]
  {m : Std.ExtTreeMap α β cmp} {a : α} {b : β}

/-- What stands under a key after an entry was put. -/
theorem getElem?_insert [DecidableEq α] (m : Std.ExtTreeMap α β cmp) (a k : α) (b : β) :
    (m.insert a b)[k]? = if a = k then some b else m[k]? := by
  simp only [Std.ExtTreeMap.getElem?_insert, Std.LawfulEqCmp.compare_eq_iff_eq]

/-- What stands under a key after an entry was taken away. -/
theorem getElem?_erase [DecidableEq α] (m : Std.ExtTreeMap α β cmp) (a k : α) :
    (m.erase a)[k]? = if a = k then none else m[k]? := by
  simp only [Std.ExtTreeMap.getElem?_erase, Std.LawfulEqCmp.compare_eq_iff_eq]

/-- An entry put under a key takes the place of an earlier one. -/
theorem insert_insert (m : Std.ExtTreeMap α β cmp) (a : α) (b b' : β) :
    (m.insert a b).insert a b' = m.insert a b' := by
  refine Std.ExtTreeMap.ext_getElem? fun k => ?_
  simp only [Std.ExtTreeMap.getElem?_insert]
  split <;> rfl

/-- Putting an entry where it stands changes nothing. -/
theorem insert_of_getElem? (h : m[a]? = some b) : m.insert a b = m := by
  refine Std.ExtTreeMap.ext_getElem? fun k => ?_
  rw [Std.ExtTreeMap.getElem?_insert]
  split
  · rename_i hk
    rw [← Std.LawfulEqCmp.compare_eq_iff_eq.1 hk, h]
  · rfl

/-- A key that has a place keeps it. -/
theorem insertIfNew_of_mem (h : a ∈ m) (b : β) : m.insertIfNew a b = m := by
  refine Std.ExtTreeMap.ext_getElem? fun k => ?_
  rw [Std.ExtTreeMap.getElem?_insertIfNew, if_neg fun hnew => hnew.2 h]

/-- A key that is given a place has what it had, and otherwise what the place was made with. -/
theorem getElem?_insertIfNew_self (m : Std.ExtTreeMap α β cmp) (a : α) (b : β) :
    (m.insertIfNew a b)[a]? = some (m[a]?.getD b) := by
  by_cases h : a ∈ m
  · rw [insertIfNew_of_mem h, Std.ExtTreeMap.getElem?_eq_some_getElem h]
    rfl
  · rw [Std.ExtTreeMap.getElem?_insertIfNew, if_pos ⟨Std.ReflCmp.compare_self, h⟩,
      Std.ExtTreeMap.getElem?_eq_none h]
    rfl

/-- A place made for a key is filled by the entry that is put there. -/
theorem insert_insertIfNew (m : Std.ExtTreeMap α β cmp) (a : α) (b b' : β) :
    (m.insertIfNew a b).insert a b' = m.insert a b' := by
  refine Std.ExtTreeMap.ext_getElem? fun k => ?_
  rw [Std.ExtTreeMap.getElem?_insert, Std.ExtTreeMap.getElem?_insert]
  split
  · rfl
  · rename_i hne
    rw [Std.ExtTreeMap.getElem?_insertIfNew, if_neg fun hnew => hne hnew.1]

end Delegation.Entries
