import Delegation.Proofs.Coverage
/-!
# Which parameters the values of an adapted call reach

Adapting a call counts its values against the required parameters that no
keyword names, wherever these stand; binding gives the values to the first
parameters, whatever the keywords name. Where a call gives exactly one value for
each of those required parameters the two agree if these come before every
parameter that a keyword names, and then each of them is bound to the value at
its place among them. A keyword that names a parameter before one of them has
that parameter filled twice, and the call is refused although it was adapted.
-/

namespace Delegation

namespace Signature

variable {s : Signature} {a : Arguments} {b : Binding} {keywords : NameMap Value}

/-- A keyword names a parameter that stands before a required one that no keyword names. -/
def Overtaken (s : Signature) (keywords : NameMap Value) : Prop :=
  ∃ (i j : Nat) (p q : Parameter), i < j ∧ s.params[i]? = some p ∧ s.params[j]? = some q ∧
    p.name ∈ keywords ∧ q ∈ s.unnamed keywords

/-- The first parameters are required as long as they are no more than the required ones. -/
theorem default_of_mem_take {given : Nat} (hgiven : given ≤ s.required.length) :
    ∀ p ∈ s.params.take given, p.default = none := by
  intro p hp
  rw [← s.required_append_defaulted, List.take_append_of_le_length hgiven] at hp
  exact default_of_mem_required (List.mem_of_mem_take hp)

/-- The required parameters are no more than the parameters. -/
theorem length_required_le (s : Signature) : s.required.length ≤ s.params.length :=
  (List.takeWhile_prefix _).length_le

/-- Where no keyword names one of as many first parameters as there are to be given by position,
those to be given by position are the first ones. -/
theorem unnamed_eq_take
    (hfree : ∀ p ∈ s.params.take (s.unnamed keywords).length, p.name ∉ keywords) :
    s.unnamed keywords = s.params.take (s.unnamed keywords).length := by
  have hrequired := length_unnamed_le_required s keywords
  have hparams := length_required_le s
  have hsplit := unnamed_eq_append (default_of_mem_take hrequired) hfree
  have hlength := congrArg List.length hsplit
  rw [List.length_append, List.length_take] at hlength
  have hrest : (s.params.drop (s.unnamed keywords).length).filter
      (fun p => p.default = none ∧ p.name ∉ keywords) = [] :=
    List.eq_nil_of_length_eq_zero (by omega)
  rwa [hrest, List.append_nil] at hsplit

/-- Of those to be given by position one stands at or after every place below their number. -/
theorem exists_unnamed_from {i : Nat} (hi : i < (s.unnamed keywords).length) :
    ∃ j q, i ≤ j ∧ s.params[j]? = some q ∧ q ∈ s.unnamed keywords := by
  have hsplit := filter_take_append_filter_drop s keywords i
  have hlength := congrArg List.length hsplit
  rw [List.length_append] at hlength
  have hbefore := List.length_filter_le
    (fun p : Parameter => p.default = none ∧ p.name ∉ keywords) (s.params.take i)
  have htake := List.length_take_le i s.params
  have hpos : 0 < ((s.params.drop i).filter
      fun p => p.default = none ∧ p.name ∉ keywords).length := by
    omega
  obtain ⟨q, hq⟩ := List.exists_mem_of_length_pos hpos
  have hunnamed : q ∈ s.unnamed keywords := by
    rw [← hsplit]
    exact List.mem_append_right _ hq
  obtain ⟨d, hd⟩ := List.mem_iff_getElem?.1 (List.mem_of_mem_filter hq)
  rw [List.getElem?_drop] at hd
  exact ⟨i + d, q, Nat.le_add_right i d, hd, hunnamed⟩

/-- A keyword names a parameter before one of those to be given by position exactly if it names one
of as many first parameters. -/
theorem overtaken_iff : s.Overtaken keywords ↔
    ∃ p ∈ s.params.take (s.unnamed keywords).length, p.name ∈ keywords := by
  constructor
  · rintro ⟨i, j, p, q, hij, hp, hq, hname, hunnamed⟩
    by_contra hnone
    have hfree : ∀ p ∈ s.params.take (s.unnamed keywords).length, p.name ∉ keywords :=
      fun p hp hk => hnone ⟨p, hp, hk⟩
    rw [unnamed_eq_take hfree] at hunnamed
    obtain ⟨j', hj', hq'⟩ := mem_take_params.1 hunnamed
    have hplace : j' = j := place_unique hq' hq rfl
    exact hfree p (mem_take_params.2 ⟨i, by omega, hp⟩) hname
  · rintro ⟨p, hfront, hname⟩
    obtain ⟨i, hlt, hi⟩ := mem_take_params.1 hfront
    obtain ⟨j, q, hij, hq, hunnamed⟩ := exists_unnamed_from hlt
    have hne : i ≠ j := by
      rintro rfl
      obtain rfl : p = q := Option.some.inj (hi.symm.trans hq)
      exact (mem_unnamed.1 hunnamed).2.2 hname
    exact ⟨i, j, p, q, by omega, hi, hq, hname, hunnamed⟩

/-- A misplaced keyword that names a parameter names one that is filled by position. -/
theorem filled_of_misplaced {given : Nat} {k : String} (hname : k ∈ s.paramNames)
    (hmisplaced : s.Misplaced given k) : k ∈ s.filledNames given := by
  rcases hmisplaced with hfilled | ⟨hother, -⟩
  · exact hfilled
  · exact absurd hname hother

/-- A call that gives by position one value for each required parameter that no keyword names has
a misplaced keyword exactly if a keyword names a parameter before one of those. -/
theorem overtaken_iff_misplaced (hnames : ∀ k ∈ a.keywords, k ∈ s.paramNames)
    (hcount : a.positional.length = (s.unnamed a.keywords).length) :
    s.Overtaken a.keywords ↔ ∃ k ∈ a.keywords, s.Misplaced a.positional.length k := by
  rw [overtaken_iff, ← hcount]
  constructor
  · rintro ⟨p, hp, hk⟩
    by_contra hnone
    have hplaced : ∀ k ∈ a.keywords, ¬ s.Misplaced a.positional.length k :=
      fun k hk hm => hnone ⟨k, hk, hm⟩
    exact not_mem_of_not_misplaced hplaced p hp hk
  · rintro ⟨k, hk, hmisplaced⟩
    have hfilled := filled_of_misplaced (hnames k hk) hmisplaced
    obtain ⟨i, p, hi, hp, rfl⟩ := mem_filledNames.1 hfilled
    exact ⟨p, mem_take_params.2 ⟨i, hi, hp⟩, hk⟩

/-- A call that gives one value by position for each required parameter that no keyword names does
not exceed the parameters. -/
theorem not_exceeded (hcount : a.positional.length = (s.unnamed a.keywords).length) :
    ¬ s.Exceeded a := by
  rintro ⟨hexceeded, -⟩
  have hrequired := length_unnamed_le_required s a.keywords
  have hparams := length_required_le s
  omega

/-- A bound parameter is found by its name, with the value it has at its place. -/
theorem Binds.get?_of_place (h : s.Binds a b) {i : Nat} {p : Parameter}
    (hp : s.params[i]? = some p) :
    b.get? p.name = valueAt? a.keywords a.positional i p := by
  have hnames : b.params.map (·.1) = s.paramNames := fill_names h.params
  have hplace := h.getElem?_params i
  rw [hp, Option.bind_some] at hplace
  cases hvalue : valueAt? a.keywords a.positional i p with
  | none =>
    -- every parameter is bound, so there is an entry at its place
    have hlength := congrArg List.length hnames
    rw [paramNames, List.length_map, List.length_map] at hlength
    have hi := (List.getElem?_eq_some_iff.1 hp).1
    rw [hvalue, Option.map_none, List.getElem?_eq_none_iff] at hplace
    omega
  | some v =>
    rw [hvalue, Option.map_some] at hplace
    have hnodup : (b.params.map (·.1)).Nodup := hnames ▸ s.paramNames_nodup
    exact Binding.get?_of_mem hnodup (List.mem_of_getElem? hplace)

/-- A parameter that a keyword names is bound to the value of the keyword. -/
theorem Binds.get?_of_keyword (h : s.Binds a b) {k : String} (hk : k ∈ a.keywords)
    (hname : k ∈ s.paramNames) : b.get? k = a.keywords[k]? := by
  obtain ⟨i, p, hp, rfl⟩ := mem_paramNames.1 hname
  have hi : a.positional.length ≤ i := Nat.not_lt.1 fun hlt =>
    (keywords_fit_iff.1 h.keywords).1 i p hp hlt hk
  rw [h.get?_of_place hp, valueAt?_of_le hi]
  exact Option.or_of_isSome (Std.ExtTreeMap.mem_iff_isSome_getElem?.1 hk)

/-- Where a call gives one value by position for each required parameter that no keyword names,
these are bound to those values in their order. -/
theorem Binds.get?_of_unnamed (h : s.Binds a b)
    (hcount : a.positional.length = (s.unnamed a.keywords).length) {j : Nat} {p : Parameter}
    (hj : (s.unnamed a.keywords)[j]? = some p) : b.get? p.name = a.positional[j]? := by
  have hfree : ∀ p ∈ s.params.take (s.unnamed a.keywords).length, p.name ∉ a.keywords := by
    intro p hp
    obtain ⟨i, hi, hp⟩ := mem_take_params.1 hp
    exact (keywords_fit_iff.1 h.keywords).1 i p hp (by omega)
  have hlt : j < a.positional.length := by
    rw [hcount]
    exact (List.getElem?_eq_some_iff.1 hj).1
  rw [unnamed_eq_take hfree, List.getElem?_take, if_pos (by omega)] at hj
  rw [h.get?_of_place hj, valueAt?_eq_ite, if_pos hlt]

end Signature

namespace Renaming

open Signature (pairSignature)

variable {r : Renaming} {s : Signature} {a handed : Arguments}

/-- Take a call that is adapted, gives exactly one value by position for each required parameter
that no keyword names after renaming, and no keyword that names no parameter. It binds exactly if
no keyword names a parameter before one of those. Then a parameter that a keyword names is bound to
the value of the keyword, and the required parameters that no keyword names are bound to the values
given by position, in their order. Otherwise the call is refused although it was adapted, for the
least keyword that names a parameter filled by position. -/
theorem adapt_binds_unless_overtaken (h : r.adapt s a = .ok handed)
    (hnames : ∀ k ∈ handed.keywords, k ∈ s.paramNames)
    (hcount : handed.positional.length = (s.unnamed handed.keywords).length) :
    ((∃ b, s.bind handed = .ok b) ↔ ¬ s.Overtaken handed.keywords) ∧
    (∀ b, s.bind handed = .ok b →
      (∀ k ∈ handed.keywords, b.get? k = handed.keywords[k]?) ∧
      ∀ (j : Nat) (p : Parameter), (s.unnamed handed.keywords)[j]? = some p →
        b.get? p.name = handed.positional[j]?) ∧
    (s.Overtaken handed.keywords → ∃ k, s.LeastMisplaced handed k ∧
      s.bind handed = .error (.multipleValues s.name k)) := by
  have hroom := Signature.not_exceeded hcount
  have hovertaken := Signature.overtaken_iff_misplaced hnames hcount
  have hrefused : s.Overtaken handed.keywords → ∃ k, s.LeastMisplaced handed k ∧
      s.bind handed = .error (.multipleValues s.name k) := by
    intro hover
    obtain ⟨k, hk⟩ := Signature.exists_leastMisplaced (hovertaken.1 hover)
    have hfilled := Signature.filled_of_misplaced (hnames k hk.mem) hk.misplaced
    have hbind := Signature.bind_of_leastMisplaced hroom hk
    rw [Signature.misplacement, if_pos hfilled] at hbind
    exact ⟨k, hk, hbind⟩
  refine ⟨⟨?aligned, ?binds⟩, ?values, hrefused⟩
  case aligned =>
    rintro ⟨b, hb⟩ hover
    obtain ⟨k, -, he⟩ := hrefused hover
    rw [hb] at he
    cases he
  case binds =>
    intro hnot
    exact exists_bind_of_adapt h hroom fun k hk hm => hnot (hovertaken.2 ⟨k, hk, hm⟩)
  case values =>
    intro b hb
    have hbinds := Signature.bind_eq_ok_iff.1 hb
    exact ⟨fun k hk => hbinds.get?_of_keyword hk (hnames k hk),
      fun j p hj => hbinds.get?_of_unnamed hcount hj⟩

/-- An adapted call that gives the first parameter by position and the second one by keyword. -/
def alignedCall : Arguments := ⟨[.str "x"], .ofEntries [("depth", .int 2)]⟩

/-- A call that gives the second parameter by its old name. -/
theorem adapt_binds_unless_overtaken_sample :
    (Renaming.mk [("limit", "depth")]).adapt pairSignature
        ⟨[.str "x"], .ofEntries [("limit", .int 2)]⟩ = .ok alignedCall ∧
      (∀ k ∈ alignedCall.keywords, k ∈ pairSignature.paramNames) ∧
      alignedCall.positional.length = (pairSignature.unnamed alignedCall.keywords).length ∧
      ¬ pairSignature.Overtaken alignedCall.keywords ∧
      ∃ b, pairSignature.bind alignedCall = .ok b ∧
        b.get? "depth" = some (.int 2) ∧ b.get? "url" = some (.str "x") := by
  have hadapt : (Renaming.mk [("limit", "depth")]).adapt pairSignature
      ⟨[.str "x"], .ofEntries [("limit", .int 2)]⟩ = .ok alignedCall := by
    decide +kernel
  have hunnamed : pairSignature.unnamed alignedCall.keywords = [⟨"url", none⟩] := by
    decide +kernel
  have honly : ∀ k ∈ alignedCall.keywords, k = "depth" := by
    intro k hk
    simpa using NameMap.mem_ofEntries.1 hk
  have hnames : ∀ k ∈ alignedCall.keywords, k ∈ pairSignature.paramNames := by
    intro k hk
    rw [honly k hk]
    decide
  have hcount : alignedCall.positional.length =
      (pairSignature.unnamed alignedCall.keywords).length := by
    rw [hunnamed]
    rfl
  have haligned : ¬ pairSignature.Overtaken alignedCall.keywords := by
    rw [Signature.overtaken_iff, hunnamed]
    rintro ⟨p, hp, hk⟩
    have hurl : p = ⟨"url", none⟩ := by simpa [pairSignature] using hp
    have hdepth := honly p.name hk
    rw [hurl] at hdepth
    exact absurd hdepth (by decide)
  obtain ⟨hbinds, hvalues, -⟩ := adapt_binds_unless_overtaken hadapt hnames hcount
  obtain ⟨b, hb⟩ := hbinds.2 haligned
  obtain ⟨hkeyword, hposition⟩ := hvalues b hb
  have hgiven : "depth" ∈ alignedCall.keywords := NameMap.mem_ofEntries.2 (by decide)
  have hdepth : b.get? "depth" = some (.int 2) :=
    (hkeyword "depth" hgiven).trans (by decide +kernel)
  have hurl : b.get? "url" = some (.str "x") :=
    hposition 0 ⟨"url", none⟩ (by rw [hunnamed]; rfl)
  exact ⟨hadapt, hnames, hcount, haligned, b, hb, hdepth, hurl⟩

/-- An adapted call that gives the first parameter by keyword and the second one by position. -/
def overtakenCall : Arguments := ⟨[.int 2], .ofEntries [("url", .str "x")]⟩

/-- A call that gives the first parameter by its old name is adapted and gives a value for the other
one, but the value is taken for the first parameter and the call does not bind. -/
theorem adapted_but_refused :
    (Renaming.mk [("address", "url")]).adapt pairSignature
        ⟨[.int 2], .ofEntries [("address", .str "x")]⟩ = .ok overtakenCall ∧
      (∀ k ∈ overtakenCall.keywords, k ∈ pairSignature.paramNames) ∧
      overtakenCall.positional.length = (pairSignature.unnamed overtakenCall.keywords).length ∧
      ¬ ∃ b, pairSignature.bind overtakenCall = .ok b := by
  have hnames : ∀ k ∈ overtakenCall.keywords, k ∈ pairSignature.paramNames := by
    intro k hk
    have hurl : k = "url" := by simpa using NameMap.mem_ofEntries.1 hk
    rw [hurl]
    decide
  have hrefused : pairSignature.bind overtakenCall = .error (.multipleValues "fetch" "url") := by
    decide +kernel
  refine ⟨by decide +kernel, hnames, by decide +kernel, ?_⟩
  rintro ⟨b, hb⟩
  rw [hrefused] at hb
  cases hb

end Renaming

end Delegation
