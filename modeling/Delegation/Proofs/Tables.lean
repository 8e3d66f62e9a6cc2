import Mathlib.Data.List.Dedup
import Delegation.Dispatch
import Delegation.Proofs.Entries
/-!
# What a run of registrations leaves in a table

A table is read by its keys, pairs of a class and a qualifier. Whatever is
asked for, the first registration of a key gives the key its handler for ever:
a later one of the same key is refused and leaves the table as it is, although
the class is given a place before the key is looked up. No class is ever left
with a place and no handler, so tables with the same handlers are the same,
and the sizes of a table count its keys and its classes.
-/

namespace Delegation

namespace HandlerTable

variable {η : Type}

/-- A table contains a key if it has a handler for it. -/
theorem contains_iff {t : HandlerTable η} {c : ClassId} {q : String} :
    t.contains c q = true ↔ ∃ v, t.get? c q = some v := Option.isSome_iff_exists

/-- A handler stands among the handlers of its class. -/
theorem get?_eq_some {t : HandlerTable η} {c : ClassId} {q : String} {v : η} :
    t.get? c q = some v ↔ ∃ own, t.entries[c]? = some own ∧ own[q]? = some v :=
  Option.bind_eq_some_iff

/-- No class has a place and no handlers. -/
def Tight (t : HandlerTable η) : Prop := ∀ c ∈ t.entries, ∃ q, t.contains c q = true

/-- Without classes no place is vacant. -/
theorem tight_empty : Tight (empty : HandlerTable η) := by
  intro c hc
  simp [empty] at hc

/-- A class has a place in a tight table exactly if it has a handler. -/
theorem Tight.mem_entries_iff {t : HandlerTable η} (ht : t.Tight) {c : ClassId} :
    c ∈ t.entries ↔ ∃ q, t.contains c q = true := by
  refine ⟨ht c, fun ⟨q, hq⟩ => ?_⟩
  obtain ⟨v, hv⟩ := contains_iff.1 hq
  obtain ⟨own, hown, -⟩ := get?_eq_some.1 hv
  rw [Std.ExtTreeMap.mem_iff_isSome_getElem?, hown]
  rfl

/-- Putting a handler into a table leaves no place vacant. -/
theorem Tight.put {t : HandlerTable η} (ht : t.Tight) (c : ClassId) (q : String) (v : η) :
    (t.put c q v).Tight := by
  intro c' hc'
  have hmem : c = c' ∨ c' ∈ t.entries := by
    have hinsert := Std.ExtTreeMap.mem_insert.1 hc'
    rwa [Std.LawfulEqCmp.compare_eq_iff_eq] at hinsert
  rcases hmem with rfl | hold
  · exact ⟨q, by simp [contains, get?_put]⟩
  · obtain ⟨q', hq'⟩ := ht c' hold
    refine ⟨q', ?_⟩
    rw [contains, get?_put]
    split
    · rfl
    · exact hq'

/-- Tight tables with the same handlers are the same. -/
theorem Tight.ext {t t' : HandlerTable η} (ht : t.Tight) (ht' : t'.Tight)
    (hsame : ∀ c q, t.get? c q = t'.get? c q) : t = t' := by
  have hplaces : ∀ c, c ∈ t.entries ↔ c ∈ t'.entries := by
    intro c
    rw [ht.mem_entries_iff, ht'.mem_entries_iff]
    simp only [contains, hsame]
  have hentries : t.entries = t'.entries := by
    refine Std.ExtTreeMap.ext_getElem? fun c => ?_
    have hplace := hplaces c
    have hhandlers := hsame c
    rw [Std.ExtTreeMap.mem_iff_isSome_getElem?, Std.ExtTreeMap.mem_iff_isSome_getElem?] at hplace
    cases hc : t.entries[c]? with
    | none =>
      rw [hc] at hplace
      exact (Option.not_isSome_iff_eq_none.1 fun hsome => nomatch hplace.2 hsome).symm
    | some own =>
      rw [hc] at hplace
      obtain ⟨own', hc'⟩ := Option.isSome_iff_exists.1 (hplace.1 rfl)
      have hown : own = own' := Std.ExtTreeMap.ext_getElem? fun q => by
        simpa [get?, hc, hc'] using hhandlers q
      rw [hc', hown]
  cases t
  cases t'
  cases hentries
  rfl

section Enter

variable {h : Hierarchy} {c : ClassId} {q : String}

/-- A class that has a handler has its place already. -/
theorem withPlace_of_contains {t : HandlerTable η} (hc : t.contains c q = true) :
    t.withPlace c = t := by
  obtain ⟨v, hv⟩ := contains_iff.1 hc
  obtain ⟨own, hown, -⟩ := get?_eq_some.1 hv
  have hmem : c ∈ t.entries := by
    rw [Std.ExtTreeMap.mem_iff_isSome_getElem?, hown]
    rfl
  rw [withPlace, Entries.insertIfNew_of_mem hmem]

/-- A place made for a class is filled by the first handler put there. -/
theorem put_withPlace (t : HandlerTable η) (c : ClassId) (q : String) (v : η) :
    (t.withPlace c).put c q v = t.put c q v := by
  have hown : ((t.withPlace c).entries[c]?).getD ∅ = (t.entries[c]?).getD ∅ := by
    rw [withPlace, Entries.getElem?_insertIfNew_self]
    rfl
  have hentries : ∀ own, (t.withPlace c).entries.insert c own = t.entries.insert c own :=
    Entries.insert_insertIfNew t.entries c ∅
  rw [put, put, hown, hentries]

/-- A key that a table contains is refused, and the table stays as it is. -/
theorem enter_of_contains {t : HandlerTable η} (hc : t.contains c q = true) (h : Hierarchy)
    (v : η) : t.enter h c q v = (t, .error (.duplicate (h.name c) q)) := by
  rw [enter, withPlace_of_contains hc, if_pos hc]

/-- The handler of a new key is put into the table. -/
theorem enter_of_not_contains {t : HandlerTable η} (hc : ¬ t.contains c q = true) (h : Hierarchy)
    (v : η) : t.enter h c q v = (t.put c q v, .ok ()) := by
  have hplace : ¬ (t.withPlace c).contains c q = true := by
    rwa [contains, get?_withPlace]
  rw [enter, if_neg hplace, put_withPlace]

/-- A registration gives a key that has no handler the new one, and leaves all others. -/
theorem get?_enter (t : HandlerTable η) (h : Hierarchy) (c : ClassId) (q : String) (v : η)
    (c' : ClassId) (q' : String) : (t.enter h c q v).1.get? c' q' =
      (t.get? c' q').or (if (c, q) = (c', q') then some v else none) := by
  by_cases hc : t.contains c q = true
  · rw [enter_of_contains hc]
    split
    · rename_i hkey
      obtain ⟨rfl, rfl⟩ := Prod.mk.inj hkey
      obtain ⟨old, hold⟩ := contains_iff.1 hc
      rw [hold]
      rfl
    · rw [Option.or_none]
  · rw [enter_of_not_contains hc, get?_put]
    by_cases hkey : (c, q) = (c', q')
    · obtain ⟨rfl, rfl⟩ := Prod.mk.inj hkey
      have hnone : t.get? c q = none := Option.not_isSome_iff_eq_none.1 hc
      simp [hnone]
    · have hne : ¬ (c' = c ∧ q' = q) := fun ⟨hcc, hqq⟩ => hkey (by rw [hcc, hqq])
      rw [if_neg hne, if_neg hkey, Option.or_none]

/-- A registration leaves no place vacant. -/
theorem Tight.enter {t : HandlerTable η} (ht : t.Tight) (h : Hierarchy) (c : ClassId) (q : String)
    (v : η) : (t.enter h c q v).1.Tight := by
  by_cases hc : t.contains c q = true
  · rw [enter_of_contains hc]
    exact ht
  · rw [enter_of_not_contains hc]
    exact ht.put c q v

end Enter

section Counting

/-- The keys of a table, class by class. -/
def keys (t : HandlerTable η) : List (ClassId × String) :=
  t.entries.toList.flatMap fun e => e.2.keys.map (Prod.mk e.1)

/-- The keys of a table are those that it contains. -/
theorem mem_keys {t : HandlerTable η} {c : ClassId} {q : String} :
    (c, q) ∈ t.keys ↔ t.contains c q = true := by
  rw [keys, List.mem_flatMap, contains_iff]
  constructor
  · rintro ⟨⟨c', own⟩, hown, hq⟩
    obtain ⟨q', hq', hkey⟩ := List.mem_map.1 hq
    obtain ⟨rfl, rfl⟩ := Prod.mk.inj hkey
    have hc := Std.ExtTreeMap.mem_toList_iff_getElem?_eq_some.1 hown
    rw [Std.ExtTreeMap.mem_keys, Std.ExtTreeMap.mem_iff_isSome_getElem?] at hq'
    obtain ⟨v, hv⟩ := Option.isSome_iff_exists.1 hq'
    exact ⟨v, get?_eq_some.2 ⟨own, hc, hv⟩⟩
  · rintro ⟨v, hv⟩
    obtain ⟨own, hc, hq⟩ := get?_eq_some.1 hv
    refine ⟨(c, own), Std.ExtTreeMap.mem_toList_iff_getElem?_eq_some.2 hc, ?_⟩
    refine List.mem_map.2 ⟨q, ?_, rfl⟩
    rw [Std.ExtTreeMap.mem_keys, Std.ExtTreeMap.mem_iff_isSome_getElem?, hq]
    rfl

/-- No key of a table is listed twice. -/
theorem nodup_keys (t : HandlerTable η) : t.keys.Nodup := by
  have hclasses : (t.entries.toList.map Prod.fst).Nodup := by
    rw [Std.ExtTreeMap.map_fst_toList_eq_keys]
    exact Std.ExtTreeMap.nodup_keys
  refine List.nodup_flatMap.2 ⟨fun e _ => ?_, ?_⟩
  · exact Std.ExtTreeMap.nodup_keys.map fun q q' hkey => (Prod.mk.inj hkey).2
  · refine (List.pairwise_map.1 hclasses).imp fun {e e'} hne k hk hk' => ?_
    obtain ⟨q, -, rfl⟩ := List.mem_map.1 hk
    obtain ⟨q', -, hkey⟩ := List.mem_map.1 hk'
    exact hne (Prod.mk.inj hkey).1.symm

/-- The size of a table is the number of its keys. -/
theorem length_keys (t : HandlerTable η) : t.keys.length = t.count := by
  simp only [keys, count, List.length_flatMap, List.length_map, Std.ExtTreeMap.length_keys,
    List.sum_eq_foldr]

end Counting

/-- Something that a table is asked to register. -/
structure Request (η : Type) where
  /-- The classes that are declared by then. -/
  hierarchy : Hierarchy
  /-- The class. -/
  cls : ClassId
  /-- The qualifier, if one is given. -/
  qualifier : Option String
  /-- The handler. -/
  handler : η

/-- What a handler is asked to stand under: without a qualifier it is the default one. -/
def Request.key (r : Request η) : ClassId × String := (r.cls, r.qualifier.getD default)

/-- What becomes of a table on a request. -/
def serve (t : HandlerTable η) (r : Request η) : HandlerTable η × Except DispatchError Unit :=
  t.enter r.hierarchy r.cls r.key.2 r.handler

/-- The table after requests, one after the other, whether they were refused or not. -/
def serveAll (t : HandlerTable η) (rs : List (Request η)) : HandlerTable η :=
  rs.foldl (fun t r => (t.serve r).1) t

variable {t : HandlerTable η} {rs : List (Request η)}

/-- Requests leave no place vacant. -/
theorem Tight.serveAll (ht : t.Tight) (rs : List (Request η)) : (t.serveAll rs).Tight := by
  induction rs generalizing t with
  | nil => exact ht
  | cons r rs ih => exact ih (ht.enter r.hierarchy r.cls r.key.2 r.handler)

/-- After requests a key has the handler it had before, and without one that of the first request
for it. -/
theorem get?_serveAll (t : HandlerTable η) (rs : List (Request η)) (c : ClassId) (q : String) :
    (t.serveAll rs).get? c q =
      (t.get? c q).or ((rs.find? fun r => r.key = (c, q)).map (·.handler)) := by
  induction rs generalizing t with
  | nil => simp [HandlerTable.serveAll]
  | cons r rs ih =>
    have hnext : t.serveAll (r :: rs) = (t.serve r).1.serveAll rs := rfl
    have hkey : (r.cls, r.key.2) = r.key := rfl
    rw [hnext, ih, serve, get?_enter, hkey, Option.or_assoc, List.find?_cons]
    by_cases hr : r.key = (c, q)
    · simp [hr]
    · simp [hr]

/-- Requests to an empty table give a key the handler of the first request for it. -/
theorem get?_serveAll_empty (rs : List (Request η)) (c : ClassId) (q : String) :
    (empty.serveAll rs).get? c q = (rs.find? fun r => r.key = (c, q)).map (·.handler) := by
  have hnone : (empty : HandlerTable η).get? c q = none := by simp [get?, empty]
  rw [get?_serveAll, hnone, Option.none_or]

/-- Requests to an empty table leave the keys that were asked for. -/
theorem contains_serveAll_empty {c : ClassId} {q : String} :
    (empty.serveAll rs).contains c q = true ↔ ∃ r ∈ rs, r.key = (c, q) := by
  rw [contains, get?_serveAll_empty, Option.isSome_map, List.find?_isSome]
  simp only [decide_eq_true_eq]

/-- Where no key is asked for twice, the request for a key is the only one. -/
theorem find?_key_eq_some (hkeys : (rs.map (·.key)).Nodup) {k : ClassId × String}
    {r : Request η} : rs.find? (fun r => r.key = k) = some r ↔ r ∈ rs ∧ r.key = k := by
  constructor
  · intro hfound
    have hk : r.key = k := by simpa using List.find?_some hfound
    exact ⟨List.mem_of_find?_eq_some hfound, hk⟩
  · rintro ⟨hr, hk⟩
    have hsome : (rs.find? fun r => r.key = k).isSome = true :=
      List.find?_isSome.2 ⟨r, hr, decide_eq_true hk⟩
    obtain ⟨r', hr'⟩ := Option.isSome_iff_exists.1 hsome
    have hk' : r'.key = k := by simpa using List.find?_some hr'
    have hsame : r' = r := List.inj_on_of_nodup_map hkeys (List.mem_of_find?_eq_some hr') hr
      (hk'.trans hk.symm)
    rw [hr', hsame]

/-- Where no key is asked for twice, the order of requests to an empty table does not matter. -/
theorem serveAll_empty_perm {rs' : List (Request η)} (hperm : rs.Perm rs')
    (hkeys : (rs.map (·.key)).Nodup) : empty.serveAll rs' = empty.serveAll rs := by
  have hkeys' : (rs'.map (·.key)).Nodup := (hperm.map _).nodup_iff.1 hkeys
  refine (tight_empty.serveAll rs').ext (tight_empty.serveAll rs) fun c q => ?_
  have hfind : rs'.find? (fun r => r.key = (c, q)) = rs.find? (fun r => r.key = (c, q)) :=
    Option.ext fun r => by
      rw [find?_key_eq_some hkeys', find?_key_eq_some hkeys, hperm.mem_iff]
  rw [get?_serveAll_empty, get?_serveAll_empty, hfind]

/-- A list without repetitions is as long as any list of the same elements once that has lost its
repetitions. -/
theorem length_eq_length_dedup {α : Type} [DecidableEq α] {l l' : List α} (hl : l.Nodup)
    (hsame : ∀ a, a ∈ l ↔ a ∈ l') : l.length = l'.dedup.length := by
  have hperm : l.Perm l'.dedup := (List.perm_ext_iff_of_nodup hl (List.nodup_dedup l')).2
    fun a => (hsame a).trans List.mem_dedup.symm
  exact hperm.length_eq

/-- Requests to an empty table leave one handler for each key that was asked for. -/
theorem count_serveAll_empty (rs : List (Request η)) :
    (empty.serveAll rs).count = (rs.map (·.key)).dedup.length := by
  rw [← length_keys]
  refine length_eq_length_dedup (nodup_keys _) fun ⟨c, q⟩ => ?_
  rw [mem_keys, contains_serveAll_empty, List.mem_map]

/-- Requests to an empty table leave a place for each class that was asked for. -/
theorem classCount_serveAll_empty (rs : List (Request η)) :
    (empty.serveAll rs).classCount = (rs.map (·.cls)).dedup.length := by
  have htight : (empty.serveAll rs).Tight := tight_empty.serveAll rs
  rw [classCount, ← Std.ExtTreeMap.length_keys]
  refine length_eq_length_dedup Std.ExtTreeMap.nodup_keys fun c => ?_
  rw [Std.ExtTreeMap.mem_keys, htight.mem_entries_iff, List.mem_map]
  simp only [contains_serveAll_empty]
  constructor
  · rintro ⟨q, r, hr, hkey⟩
    exact ⟨r, hr, congrArg Prod.fst hkey⟩
  · rintro ⟨r, hr, rfl⟩
    exact ⟨r.key.2, r, hr, rfl⟩

/-- Whatever an empty table is asked to register, a further request is refused, as a duplicate,
exactly if its key was asked for before, and a refused request leaves the table as it is. The table
contains the keys that were asked for, each with the handler of the first request for it. There are
as many handlers as different keys were asked for and as many classes as different classes, so the
table is empty only if nothing was asked for. If no key was asked for twice, the same requests in
any order lead to the same table. -/
theorem first_request_wins (rs : List (Request η)) :
    (∀ (r : Request η) e, ((empty.serveAll rs).serve r).2 = .error e ↔
      e = .duplicate (r.hierarchy.name r.cls) r.key.2 ∧ ∃ r' ∈ rs, r'.key = r.key) ∧
    (∀ (r : Request η), (∃ r' ∈ rs, r'.key = r.key) →
      ((empty.serveAll rs).serve r).1 = empty.serveAll rs) ∧
    (∀ c q, (empty.serveAll rs).contains c q = true ↔ ∃ r ∈ rs, r.key = (c, q)) ∧
    (∀ c q, (empty.serveAll rs).get? c q =
      (rs.find? fun r => r.key = (c, q)).map (·.handler)) ∧
    (empty.serveAll rs).count = (rs.map (·.key)).dedup.length ∧
    ((empty.serveAll rs).isEmpty = true ↔ rs = []) ∧
    (empty.serveAll rs).classCount = (rs.map (·.cls)).dedup.length ∧
    ∀ rs', rs.Perm rs' → (rs.map (·.key)).Nodup → empty.serveAll rs' = empty.serveAll rs := by
  have hcontains : ∀ r : Request η,
      (empty.serveAll rs).contains r.cls r.key.2 = true ↔ ∃ r' ∈ rs, r'.key = r.key :=
    fun _ => contains_serveAll_empty
  refine ⟨?refused, ?kept, fun _ _ => contains_serveAll_empty, get?_serveAll_empty rs,
    count_serveAll_empty rs, ?empty, classCount_serveAll_empty rs,
    fun _ hperm hkeys => serveAll_empty_perm hperm hkeys⟩
  case refused =>
    intro r e
    rw [← hcontains r, serve]
    by_cases hc : (empty.serveAll rs).contains r.cls r.key.2 = true
    · rw [enter_of_contains hc]
      simp [hc, eq_comm]
    · rw [enter_of_not_contains hc]
      simp [hc]
  case kept =>
    intro r hr
    rw [serve, enter_of_contains ((hcontains r).2 hr)]
  case empty =>
    rw [isEmpty, count_serveAll_empty, beq_iff_eq, List.length_eq_zero_iff, List.dedup_eq_nil,
      List.map_eq_nil_iff]

/-- A class and one that descends from it. -/
def sampleClasses : Hierarchy := ⟨[⟨"Root", [], [], ∅⟩, ⟨"Leaf", [0], [0], ∅⟩]⟩

/-- A default handler for the first class and a qualified one for the second. -/
def sampleRequests : List (Request String) :=
  [⟨sampleClasses, 0, none, "first"⟩, ⟨sampleClasses, 1, some "x", "second"⟩]

/-- A default handler for the first class, asked for by the name of the default qualifier. -/
def sampleRepetition : Request String := ⟨sampleClasses, 0, some default, "third"⟩

/-- A key that is asked for again under the name of the default qualifier is refused. -/
theorem first_request_wins_sample :
    ((empty.serveAll sampleRequests).serve sampleRepetition).2 =
        .error (.duplicate "Root" "default") ∧
      ((empty.serveAll sampleRequests).serve sampleRepetition).1 =
        empty.serveAll sampleRequests ∧
      (empty.serveAll sampleRequests).get? 0 "default" = some "first" ∧
      (empty.serveAll sampleRequests).count = 2 ∧
      (empty.serveAll sampleRequests).classCount = 2 ∧
      empty.serveAll sampleRequests.reverse = empty.serveAll sampleRequests := by
  have hearlier : ∃ r' ∈ sampleRequests, r'.key = sampleRepetition.key :=
    ⟨_, List.mem_cons_self, rfl⟩
  have hkeys : (sampleRequests.map (·.key)).Nodup := by decide
  obtain ⟨hrefused, hkept, -, hget, hcount, -, hclasses, hperm⟩ :=
    first_request_wins sampleRequests
  refine ⟨(hrefused _ _).2 ⟨rfl, hearlier⟩, hkept _ hearlier, hget 0 "default", ?_, ?_,
    hperm _ (List.reverse_perm sampleRequests).symm hkeys⟩
  · rw [hcount]
    decide
  · rw [hclasses]
    decide

end HandlerTable

end Delegation
