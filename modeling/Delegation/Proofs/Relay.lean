import Delegation.Proofs.Binding
import Delegation.Relay
/-!
# Relays hand on what was bound

The relay of a signature spells a binding as arguments again: the leading
parameters by position, the trailing ones by keyword, and after them what was
collected. Bound once more, these arguments give the same binding, so a call
that is handed on is refused for exactly the reasons the call itself is
refused for, and handing it on a second time changes nothing.
-/

namespace Delegation

/-- The names of a list of entries are the names its map knows. -/
theorem NameMap.mem_ofEntries {α : Type} {entries : List (String × α)} {k : String} :
    k ∈ NameMap.ofEntries entries ↔ k ∈ entries.map (·.1) := by
  rw [ofEntries, Std.ExtTreeMap.mem_insertMany_list, List.contains_iff_mem]
  simp

/-- An entry is found under its name, when no two have one name. -/
theorem NameMap.getElem?_ofEntries {α : Type} {entries : List (String × α)}
    (hn : (entries.map (·.1)).Nodup) {e : String × α} (he : e ∈ entries) :
    (NameMap.ofEntries entries)[e.1]? = some e.2 := by
  apply Std.ExtTreeMap.getElem?_insertMany_list_of_mem Std.ReflCmp.compare_self _ he
  exact (List.pairwise_map.1 hn).imp fun hne h => hne (Std.LawfulEqCmp.eq_of_compare h)

/-- A parameter has the value it is bound with, when no two have one name. -/
theorem Binding.get?_of_mem {b : Binding} (hn : (b.params.map (·.1)).Nodup)
    {e : String × Value} (he : e ∈ b.params) : b.get? e.1 = some e.2 := by
  rw [get?, find?_of_mem_nodup hn he, Option.map_some]

namespace Relay

/-- The parameters that the relay of a signature spells by position. -/
def leading (s : Signature) : List Parameter := if s.varargs.isSome then s.params else s.required

/-- The parameters that the relay of a signature spells by keyword. -/
def trailing (s : Signature) : List Parameter := if s.varargs.isSome then [] else s.defaulted

/-- The leading parameters come first and the trailing ones after them. -/
theorem leading_append_trailing (s : Signature) : leading s ++ trailing s = s.params := by
  unfold leading trailing
  split
  · exact List.append_nil _
  · exact s.required_append_defaulted

/-- Nothing follows the parameters by position where some of them go by keyword. -/
theorem varargs_of_trailing {s : Signature} (h : trailing s ≠ []) : s.varargs = none := by
  cases hv : s.varargs with
  | none => rfl
  | some v => simp [trailing, hv] at h

/-- The argument expression of a signature's relay. -/
theorem inner_ofSignature (s : Signature) : (ofSignature s).inner =
    (leading s).map (fun p => .positional p.name) ++ (trailing s).map (fun p => .keyword p.name) ++
      (s.varargs.map Piece.spreadPositional).toList ++
      (s.varkw.map Piece.spreadKeywords).toList := by
  have hpieces : s.params.map (Piece.ofParameter s.varargs.isSome) =
      (leading s).map (fun p => .positional p.name) ++
        (trailing s).map (fun p => .keyword p.name) := by
    rw [← leading_append_trailing, List.map_append]
    congr 1
    · apply List.map_congr_left
      intro p hp
      cases hv : s.varargs with
      | some v => simp [Piece.ofParameter]
      | none =>
        have : p ∈ s.required := by simpa [leading, hv] using hp
        simp [Piece.ofParameter, Signature.default_of_mem_required this]
    · apply List.map_congr_left
      intro p hp
      have hv := varargs_of_trailing (List.ne_nil_of_mem hp)
      have : p ∈ s.defaulted := by simpa [trailing, hv] using hp
      simp [Piece.ofParameter, Signature.default_of_mem_defaulted this, hv]
  rw [ofSignature, hpieces]

/-- The bound parameters in two parts, those that go by position and those that go by keyword. -/
structure Parts (s : Signature) (b : Binding) (front back : List (String × Value)) : Prop where
  /-- The parts make up all parameters. -/
  params : b.params = front ++ back
  /-- The first part holds the leading parameters. -/
  front : front.map (·.1) = (leading s).map (·.name)
  /-- The second part holds the trailing ones. -/
  back : back.map (·.1) = (trailing s).map (·.name)

/-- Every binding of a signature has its two parts. -/
theorem exists_parts {s : Signature} {a : Arguments} {b : Binding} (h : s.bind a = .ok b) :
    ∃ front back, Parts s b front back := by
  have hnames := Signature.bind_names h
  rw [Signature.paramNames, ← leading_append_trailing, List.map_append] at hnames
  obtain ⟨front, back, hparams, hfront, hback⟩ := List.map_eq_append_iff.1 hnames
  exact ⟨front, back, hparams, hfront, hback⟩

/-- Spelled by position, bound parameters give their values. -/
theorem values_positional {b : Binding} {part : List (String × Value)} {ps : List Parameter}
    (hpart : part.map (·.1) = ps.map (·.name)) (hget : ∀ e ∈ part, b.get? e.1 = some e.2) :
    (ps.map fun p => Piece.positional p.name).flatMap (Piece.values b) = part.map (·.2) := by
  induction part generalizing ps with
  | nil =>
    obtain rfl : ps = [] := List.map_eq_nil_iff.1 hpart.symm
    rfl
  | cons e part ih =>
    cases ps with
    | nil => simp at hpart
    | cons p ps =>
      obtain ⟨hname, hrest⟩ : e.1 = p.name ∧ part.map (·.1) = ps.map (·.name) := by
        simpa using hpart
      have hv : b.get? p.name = some e.2 := by
        rw [← hname]
        exact hget e List.mem_cons_self
      rw [List.map_cons, List.flatMap_cons, Piece.values, hv,
        ih hrest fun e' he => hget e' (List.mem_cons_of_mem _ he)]
      rfl

/-- Spelled by keyword, bound parameters are added to the keywords. -/
theorem addKeywords_keyword {b : Binding} {part : List (String × Value)} {ps : List Parameter}
    (hpart : part.map (·.1) = ps.map (·.name)) (hget : ∀ e ∈ part, b.get? e.1 = some e.2)
    (keywords : NameMap Value) :
    (ps.map fun p => Piece.keyword p.name).foldl (Piece.addKeywords b) keywords =
      keywords.insertMany part := by
  induction part generalizing ps keywords with
  | nil =>
    obtain rfl : ps = [] := List.map_eq_nil_iff.1 hpart.symm
    simp
  | cons e part ih =>
    cases ps with
    | nil => simp at hpart
    | cons p ps =>
      obtain ⟨hname, hrest⟩ : e.1 = p.name ∧ part.map (·.1) = ps.map (·.name) := by
        simpa using hpart
      have hv : b.get? p.name = some e.2 := by
        rw [← hname]
        exact hget e List.mem_cons_self
      rw [List.map_cons, List.foldl_cons, Piece.addKeywords, hv,
        ih hrest fun e' he => hget e' (List.mem_cons_of_mem _ he)]
      obtain ⟨k, v⟩ := e
      rw [Std.ExtTreeMap.insertMany_cons, ← hname]

/-- The arguments that a signature's relay makes of a binding: the leading parameters and what was
collected by position, the trailing parameters and what was collected by keyword. -/
theorem arguments_ofSignature {s : Signature} {a : Arguments} {b : Binding}
    (h : s.bind a = .ok b) {front back : List (String × Value)} (hp : Parts s b front back) :
    Piece.arguments (ofSignature s).inner b =
      ⟨front.map (·.2) ++ b.varargs, .ofEntries back ∪ b.varkw⟩ := by
  have hb := Signature.bind_eq_ok_iff.1 h
  have hnodup : (b.params.map (·.1)).Nodup := by
    rw [Signature.bind_names h]
    exact s.paramNames_nodup
  have hget : ∀ e ∈ front ++ back, b.get? e.1 = some e.2 := by
    rw [← hp.params]
    exact fun e he => Binding.get?_of_mem hnodup he
  have hfront : ∀ e ∈ front, b.get? e.1 = some e.2 := fun e he =>
    hget e (List.mem_append_left _ he)
  have hback : ∀ e ∈ back, b.get? e.1 = some e.2 := fun e he =>
    hget e (List.mem_append_right _ he)
  rw [Piece.arguments, inner_ofSignature]
  simp only [List.flatMap_append, List.foldl_append]
  congr 1
  · have hkeyword :
        ((trailing s).map fun p => Piece.keyword p.name).flatMap (Piece.values b) = [] := by
      simp [Piece.values]
    have hspread : (s.varargs.map Piece.spreadPositional).toList.flatMap (Piece.values b) =
        b.varargs := by
      cases hv : s.varargs with
      | none => simp [hb.varargs_eq_nil hv]
      | some v => simp [Piece.values]
    have hcollect : (s.varkw.map Piece.spreadKeywords).toList.flatMap (Piece.values b) = [] := by
      cases s.varkw <;> simp [Piece.values]
    rw [values_positional hp.front hfront, hkeyword, hspread, hcollect, List.append_nil,
      List.append_nil]
  · have hposition : ((leading s).map fun p => Piece.positional p.name).foldl
        (Piece.addKeywords b) ∅ = ∅ := by
      generalize leading s = ps
      induction ps with
      | nil => rfl
      | cons p ps ih => exact ih
    have hspread (keywords : NameMap Value) :
        (s.varargs.map Piece.spreadPositional).toList.foldl (Piece.addKeywords b) keywords =
          keywords := by
      cases s.varargs <;> rfl
    rw [hposition, addKeywords_keyword hp.back hback, hspread]
    cases hw : s.varkw with
    | none =>
      rw [hb.varkw_eq_empty hw]
      apply Std.ExtTreeMap.ext_getElem?
      intro k
      simp [NameMap.ofEntries, Std.ExtTreeMap.getElem?_union]
    | some w => rfl

/-- The parameters' names are those of the two parts. -/
theorem Parts.paramNames_eq {s : Signature} {b : Binding} {front back : List (String × Value)}
    (hp : Parts s b front back) : s.paramNames = front.map (·.1) ++ back.map (·.1) := by
  rw [Signature.paramNames, ← leading_append_trailing, List.map_append, hp.front, hp.back]

/-- The two parts have no name twice. -/
theorem Parts.names_nodup {s : Signature} {b : Binding} {front back : List (String × Value)}
    (hp : Parts s b front back) : (front.map (·.1) ++ back.map (·.1)).Nodup := by
  rw [← hp.paramNames_eq]
  exact s.paramNames_nodup

/-- The two parts have as many entries as there are parameters. -/
theorem Parts.length_eq {s : Signature} {b : Binding} {front back : List (String × Value)}
    (hp : Parts s b front back) : s.params.length = front.length + back.length := by
  simpa [Signature.paramNames] using congrArg List.length hp.paramNames_eq

/-- Values beyond the parameters never meet a parameter that goes by keyword. -/
theorem Parts.back_or_varargs {s : Signature} {a : Arguments} {b : Binding}
    {front back : List (String × Value)} (hp : Parts s b front back) (hb : s.Binds a b) :
    back = [] ∨ b.varargs = [] := by
  by_cases ht : trailing s = []
  · left
    simpa [ht] using hp.back
  · exact .inr (hb.varargs_eq_nil (varargs_of_trailing ht))

/-- No keyword handed on has a fault beside the values handed on by position. -/
theorem Parts.keywordFault?_eq_none {s : Signature} {a : Arguments} {b : Binding}
    {front back : List (String × Value)} (hp : Parts s b front back) (hb : s.Binds a b)
    {k : String} (hk : k ∈ NameMap.ofEntries back ∪ b.varkw) :
    s.keywordFault? (front.map (·.2) ++ b.varargs).length k = none := by
  rw [Signature.keywordFault?_eq_none_iff]
  rcases Std.ExtTreeMap.mem_union_iff.1 hk with hk | hk
  · rw [NameMap.mem_ofEntries] at hk
    have hback : back ≠ [] := by
      rintro rfl
      simp at hk
    have hfilled : s.filledNames (front.map (·.2) ++ b.varargs).length = front.map (·.1) := by
      rw [Signature.filledNames, hp.paramNames_eq, (hp.back_or_varargs hb).resolve_left hback,
        List.append_nil]
      exact List.take_left' (by simp)
    rw [hfilled, hp.paramNames_eq]
    exact ⟨fun hf => (List.nodup_append.1 hp.names_nodup).2.2 k hf k hk rfl,
      .inl (List.mem_append_right _ hk)⟩
  · exact ⟨fun hf => (hb.mem_varkw hk).1 (List.mem_of_mem_take hf), .inr (hb.varkw_isSome hk)⟩

/-- What is handed on fills every parameter with the value it was bound with. -/
theorem Parts.fill_eq {s : Signature} {a : Arguments} {b : Binding}
    {front back : List (String × Value)} (hp : Parts s b front back) (hb : s.Binds a b) :
    Signature.fill s.name (.ofEntries back ∪ b.varkw) s.params (front.map (·.2) ++ b.varargs) =
      .ok b.params := by
  have hrest : Signature.fill s.name (.ofEntries back ∪ b.varkw) (trailing s) b.varargs =
      .ok back := by
    rcases hp.back_or_varargs hb with rfl | hv
    · obtain ht : trailing s = [] := List.map_eq_nil_iff.1 hp.back.symm
      rw [ht]
      rfl
    · rw [hv]
      refine Signature.fill_of_keywords hp.back fun e he => ?_
      have hname : e.1 ∈ s.paramNames := by
        rw [hp.paramNames_eq]
        exact List.mem_append_right _ (List.mem_map_of_mem he)
      rw [Std.ExtTreeMap.getElem?_union_of_not_mem_right fun hk => (hb.mem_varkw hk).1 hname]
      exact NameMap.getElem?_ofEntries (List.nodup_append.1 hp.names_nodup).2.1 he
  rw [← leading_append_trailing, Signature.fill_append hp.front, hrest, hp.params]
  rfl

/-- Among the keywords handed on, those that name no parameter are those that were collected. -/
theorem Parts.filter_eq {s : Signature} {a : Arguments} {b : Binding}
    {front back : List (String × Value)} (hp : Parts s b front back) (hb : s.Binds a b) :
    (NameMap.ofEntries back ∪ b.varkw).filter (fun k _ => k ∉ s.paramNames) = b.varkw := by
  apply Std.ExtTreeMap.ext_getElem?
  intro k
  rw [Std.ExtTreeMap.getElem?_filter']
  by_cases hk : k ∈ s.paramNames
  · have hnot : k ∉ b.varkw := fun h => (hb.mem_varkw h).1 hk
    rw [Std.ExtTreeMap.getElem?_eq_none hnot]
    cases (NameMap.ofEntries back ∪ b.varkw)[k]? <;> simp [hk]
  · have hnot : k ∉ NameMap.ofEntries back := by
      rw [NameMap.mem_ofEntries]
      intro h
      exact hk (hp.paramNames_eq ▸ List.mem_append_right _ h)
    rw [Std.ExtTreeMap.getElem?_union_of_not_mem_left hnot]
    cases b.varkw[k]? <;> simp [hk, Option.filter]

/-- What a signature's relay hands on binds to what it was made of. -/
theorem bind_arguments {s : Signature} {a : Arguments} {b : Binding} (h : s.bind a = .ok b) :
    s.bind (Piece.arguments (ofSignature s).inner b) = .ok b := by
  obtain ⟨front, back, hp⟩ := exists_parts h
  have hb := Signature.bind_eq_ok_iff.1 h
  have hlength := hp.length_eq
  rw [arguments_ofSignature h hp]
  refine Signature.bind_eq_ok_iff.2
    ⟨?_, fun k hk => hp.keywordFault?_eq_none hb hk, hp.fill_eq hb, ?_, (hp.filter_eq hb).symm⟩
  · by_cases hv : s.varargs = none
    · left
      simp only [hb.varargs_eq_nil hv, List.append_nil, List.length_map]
      omega
    · exact .inr hv
  · rcases hp.back_or_varargs hb with rfl | hv
    · exact (List.drop_left' (by simpa using hlength.symm)).symm
    · simp only [hv, List.append_nil]
      exact (List.drop_eq_nil_of_le (by simp; omega)).symm

/-- The relay of a signature refuses exactly what the signature refuses, for the same reason. What
it accepts it hands on as arguments that bind to the same binding, and these it hands on as they
are. -/
theorem prepare_ofSignature_faithful (s : Signature) (a : Arguments) :
    (∀ e, (ofSignature s).prepare a = .error e ↔ s.bind a = .error e) ∧
      ∀ b, s.bind a = .ok b → ∃ handed, (ofSignature s).prepare a = .ok handed ∧
        s.bind handed = .ok b ∧ (ofSignature s).prepare handed = .ok handed := by
  constructor
  · intro e
    rw [prepare_ofSignature]
    cases h : s.bind a <;> simp [Except.map]
  · intro b h
    have hagain := bind_arguments h
    refine ⟨Piece.arguments (ofSignature s).inner b, ?_, hagain, ?_⟩
    · rw [prepare_ofSignature, h]
      rfl
    · rw [prepare_ofSignature, hagain]
      rfl

/-- A signature whose relay spells one parameter by position and one by keyword. -/
def sampleSignature : Signature :=
  ⟨"move", [⟨"item", none⟩, ⟨"target", some .none⟩], none, some "options", by decide⟩

/-- A call that leaves the default out and gives a keyword that is collected. -/
theorem prepare_ofSignature_faithful_sample :
    sampleSignature.bind ⟨[], .ofEntries [("item", .str "x"), ("fast", .bool true)]⟩ =
        .ok ⟨[("item", .str "x"), ("target", .none)], [], .ofEntries [("fast", .bool true)]⟩ ∧
      ∃ handed, (ofSignature sampleSignature).prepare
          ⟨[], .ofEntries [("item", .str "x"), ("fast", .bool true)]⟩ = .ok handed ∧
        sampleSignature.bind handed =
          .ok ⟨[("item", .str "x"), ("target", .none)], [], .ofEntries [("fast", .bool true)]⟩ ∧
        (ofSignature sampleSignature).prepare handed = .ok handed := by
  have h : sampleSignature.bind ⟨[], .ofEntries [("item", .str "x"), ("fast", .bool true)]⟩ =
      .ok ⟨[("item", .str "x"), ("target", .none)], [], .ofEntries [("fast", .bool true)]⟩ := by
    decide +kernel
  exact ⟨h, (prepare_ofSignature_faithful _ _).2 _ h⟩

end Relay

end Delegation
