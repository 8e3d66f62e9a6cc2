import Mathlib.Logic.Relation
import Delegation.Proofs.Ancestry
/-!
# Chains and bases

A class reaches the classes that bases lead to. In a hierarchy that was built
class by class, the chain of a class has the classes it reaches, each once, in
an order that keeps the chains of all of them and the order in which bases
were declared on every level. The induction is on the order of declaration: a
new class reaches itself and what its bases reach, its chain is merged from
their chains, and everything declared before stays as it was.
-/

namespace Delegation

namespace Ancestry

variable {α : Type} [DecidableEq α]

/-- The ancestors of a class are the members of its bases' chains. -/
theorem mem_ancestors? {chain : α → List α} {bases l : List α}
    (h : ancestors? chain bases = some l) (hself : ∀ b ∈ bases, b ∈ chain b) {a : α} :
    a ∈ l ↔ ∃ b ∈ bases, a ∈ chain b := by
  rw [mem_merge h]
  constructor
  · rintro ⟨s, hs, ha⟩
    rcases List.mem_append.1 hs with hs | hs
    · obtain ⟨b, hb, rfl⟩ := List.mem_map.1 hs
      exact ⟨b, hb, ha⟩
    · obtain rfl := List.mem_singleton.1 hs
      exact ⟨a, ha, hself a ha⟩
  · rintro ⟨b, hb, ha⟩
    exact ⟨chain b, List.mem_append_left _ (List.mem_map_of_mem hb), ha⟩

/-- The ancestors of a class keep the chain of every base. -/
theorem chain_sublist_ancestors? {chain : α → List α} {bases l : List α}
    (h : ancestors? chain bases = some l) {b : α} (hb : b ∈ bases) : (chain b).Sublist l :=
  (keeps_merge h).sublist _ (List.mem_append_left _ (List.mem_map_of_mem hb))

/-- The ancestors of a class keep the order of its bases. -/
theorem bases_sublist_ancestors? {chain : α → List α} {bases l : List α}
    (h : ancestors? chain bases = some l) : bases.Sublist l :=
  (keeps_merge h).sublist _ (List.mem_append_right _ (List.mem_singleton_self _))

end Ancestry

namespace Hierarchy

/-- Bases lead from a class to another one, or it is that class itself. -/
def Reaches (h : Hierarchy) : ClassId → ClassId → Prop :=
  Relation.ReflTransGen fun a b => b ∈ h.bases a

/-- The hierarchies that declaring classes on declared bases leads to, whatever members are set in
between. -/
inductive Built : Hierarchy → Prop where
  /-- Nothing is declared. -/
  | empty : Built .empty
  /-- One more class is declared. -/
  | declare {h h' : Hierarchy} {name : String} {bases : List ClassId} {members : NameMap Member}
      (before : Built h) (known : ∀ b ∈ bases, h.Knows b)
      (declared : h.declare name bases members = .ok h') : Built h'
  /-- A member is set. -/
  | setMember {h : Hierarchy} (before : Built h) (c : ClassId) (name : String) (m : Member) :
      Built (h.setMember c name m)

/-- The chain of a class is in order. -/
structure Ordered (h : Hierarchy) (c : ClassId) : Prop where
  /-- No class is repeated. -/
  nodup : (h.chain c).Nodup
  /-- The chain has the classes that bases lead to. -/
  mem_chain : ∀ a, a ∈ h.chain c ↔ h.Reaches c a
  /-- The bases keep the order they were declared in. -/
  bases : (h.bases c).Sublist (h.chain c)
  /-- The chains of all ancestors keep their order. -/
  chains : ∀ a ∈ h.chain c, (h.chain a).Sublist (h.chain c)

variable {h h' : Hierarchy} {c : ClassId}

/-- A class stands in its own chain. -/
theorem mem_chain_self (h : Hierarchy) (c : ClassId) : c ∈ h.chain c := List.mem_cons_self

/-- Chains stay closed while a hierarchy is built. -/
theorem Built.closed (built : h.Built) : h.Closed := by
  induction built with
  | empty => exact closed_empty
  | declare before known declared ih => exact closed_declare ih declared known
  | setMember before c name m ih => exact closed_setMember ih c name m

/-- What a class reaches depends on the bases along the way alone. -/
theorem Reaches.congr {known : ClassId → Prop}
    (hsame : ∀ c, known c → h'.bases c = h.bases c)
    (hknown : ∀ c, known c → ∀ b ∈ h.bases c, known b) (hc : known c) {a : ClassId}
    (hr : h.Reaches c a) : h'.Reaches c a := by
  induction hr using Relation.ReflTransGen.head_induction_on with
  | refl => exact .refl
  | @head c b hb hrest ih =>
    exact (ih (hknown c hc b hb)).head (hsame c hc ▸ hb)

/-- Bases of declared classes are declared, if all chains are in order. -/
theorem knows_of_mem_bases (closed : h.Closed) (hall : ∀ c, h.Knows c → h.Ordered c)
    (c : ClassId) (hc : h.Knows c) : ∀ b ∈ h.bases c, h.Knows b := fun b hb =>
  closed c hc b ((hall c hc).bases.subset hb)

/-- The chain of a declared class stays in order where declared classes keep their bases and their
chains. -/
theorem Ordered.congr (closed : h.Closed) (hall : ∀ c, h.Knows c → h.Ordered c)
    (hbases : ∀ c, h.Knows c → h'.bases c = h.bases c)
    (hchain : ∀ c, h.Knows c → h'.chain c = h.chain c) (hc : h.Knows c) : h'.Ordered c := by
  have hknown := knows_of_mem_bases closed hall
  have hreaches : ∀ a, h.Reaches c a ↔ h'.Reaches c a := fun a =>
    ⟨fun hr => hr.congr hbases hknown hc,
      fun hr => hr.congr (fun b hb => (hbases b hb).symm)
        (fun b hb d hd => hknown b hb d (hbases b hb ▸ hd)) hc⟩
  have hold := hall c hc
  constructor
  · rw [hchain c hc]
    exact hold.nodup
  · intro a
    rw [hchain c hc, hold.mem_chain a, hreaches a]
  · rw [hchain c hc, hbases c hc]
    exact hold.bases
  · intro a ha
    rw [hchain c hc] at ha ⊢
    rw [hchain a (closed c hc a ha)]
    exact hold.chains a ha

section Declare

variable {name : String} {bases : List ClassId} {members : NameMap Member}

/-- After a declaration the declared classes are those from before and the new one. -/
theorem knows_declare_iff (e : h.declare name bases members = .ok h') :
    h'.Knows c ↔ h.Knows c ∨ c = h.classes.length := by
  obtain ⟨ancestors, -, hcl⟩ := declare_classes e
  rw [Knows, Knows, hcl, List.length_append, List.length_singleton]
  exact Nat.lt_succ_iff_lt_or_eq

/-- The new class has the wanted bases, and its chain is merged from theirs. -/
theorem chain_declare_new (e : h.declare name bases members = .ok h') :
    ∃ ancestors, Ancestry.ancestors? h.chain bases = some ancestors ∧
      h'.bases h.classes.length = bases ∧
      h'.chain h.classes.length = h.classes.length :: ancestors := by
  obtain ⟨ancestors, hancestors, hcl⟩ := declare_classes e
  have hnew : h'.class? h.classes.length = some ⟨name, bases, ancestors, members⟩ := by
    rw [class?, hcl, List.getElem?_append_right (Nat.le_refl _), Nat.sub_self]
    rfl
  refine ⟨ancestors, hancestors, ?_, ?_⟩
  · rw [Hierarchy.bases, hnew]
    rfl
  · rw [chain, hnew]
    rfl

/-- Declaring a class leaves the bases of the declared ones as they are. -/
theorem bases_declare (e : h.declare name bases members = .ok h') (hc : h.Knows c) :
    h'.bases c = h.bases c := by
  rw [Hierarchy.bases, Hierarchy.bases, class?_declare e hc]

/-- The chain of a new class is in order if those of the declared classes are. -/
theorem ordered_declare_new (closed : h.Closed) (hall : ∀ c, h.Knows c → h.Ordered c)
    (known : ∀ b ∈ bases, h.Knows b) (e : h.declare name bases members = .ok h') :
    h'.Ordered h.classes.length := by
  obtain ⟨ancestors, hancestors, hbases, hchain⟩ := chain_declare_new e
  have hmem : ∀ a, a ∈ ancestors ↔ ∃ b ∈ bases, a ∈ h.chain b := fun a =>
    Ancestry.mem_ancestors? hancestors fun b _ => h.mem_chain_self b
  have hold : ∀ b ∈ bases, h'.Ordered b := fun b hb =>
    Ordered.congr closed hall (fun _ => bases_declare e) (fun _ => chain_declare e) (known b hb)
  have hknown : ∀ a ∈ ancestors, h.Knows a := by
    intro a ha
    obtain ⟨b, hb, ha⟩ := (hmem a).1 ha
    exact closed b (known b hb) a ha
  constructor
  · -- ancestors were declared before, so the new class is none of them
    rw [hchain]
    refine List.nodup_cons.2 ⟨fun hself => ?_, (Ancestry.keeps_merge hancestors).nodup⟩
    exact Nat.lt_irrefl _ (hknown _ hself)
  · intro a
    rw [hchain, Reaches, Relation.ReflTransGen.cases_head_iff, List.mem_cons, hmem, hbases,
      eq_comm]
    refine or_congr_right (exists_congr fun b => and_congr_right fun hb => ?_)
    rw [← chain_declare e (known b hb)]
    exact (hold b hb).mem_chain a
  · rw [hchain, hbases]
    exact (Ancestry.bases_sublist_ancestors? hancestors).cons _
  · intro a ha
    rw [hchain] at ha
    rcases List.mem_cons.1 ha with rfl | ha
    · exact .refl _
    · obtain ⟨b, hb, hab⟩ := (hmem a).1 ha
      rw [hchain, chain_declare e (hknown a ha)]
      exact (((hall b (known b hb)).chains a hab).trans
        (Ancestry.chain_sublist_ancestors? hancestors hb)).cons _

end Declare

/-- Setting a member leaves the bases of all classes as they are. -/
theorem bases_setMember (h : Hierarchy) (c k : ClassId) (name : String) (m : Member) :
    (h.setMember c name m).bases k = h.bases k := by
  simp only [Hierarchy.bases, class?, setMember, List.getElem?_modify]
  split <;> cases h.classes[k]? <;> rfl

/-- In a hierarchy that was built class by class all chains are in order. -/
theorem Built.ordered (built : h.Built) (c : ClassId) (hc : h.Knows c) : h.Ordered c := by
  induction built generalizing c with
  | empty => exact absurd hc (Nat.not_lt_zero c)
  | declare before known declared ih =>
    rcases (knows_declare_iff declared).1 hc with hold | rfl
    · exact Ordered.congr before.closed ih (fun _ => bases_declare declared)
        (fun _ => chain_declare declared) hold
    · exact ordered_declare_new before.closed ih known declared
  | @setMember h before a name m ih =>
    exact Ordered.congr before.closed ih (fun k _ => bases_setMember h a k name m)
      (fun k _ => chain_setMember h a k name m) (knows_setMember.1 hc)

/-- A class is another one or descends from it exactly if bases lead there. -/
theorem Ordered.isSubclass_iff (ordered : h.Ordered c) {a : ClassId} :
    h.isSubclass c a = true ↔ h.Reaches c a := by
  rw [isSubclass, List.contains_iff_mem, ordered.mem_chain]

/-- A class stands before every other class that it reaches. -/
theorem Ordered.before (ordered : h.Ordered c) {a : ClassId} (hr : h.Reaches c a) (hne : a ≠ c) :
    [c, a].Sublist (h.chain c) := by
  have hmem : a ∈ h.chain c := (ordered.mem_chain a).2 hr
  have hrest := (List.mem_cons.1 hmem).resolve_left hne
  exact (List.singleton_sublist.2 hrest).cons_cons c

/-- Two classes that stand in each other's chains are the same. -/
theorem Ordered.antisymm {a : ClassId} (hc : h.Ordered c) (ha : h.Ordered a)
    (hca : a ∈ h.chain c) (hac : c ∈ h.chain a) : a = c := by
  have hchain : h.chain a = h.chain c :=
    (hc.chains a hca).eq_of_length_le (ha.chains c hac).length_le
  exact (List.cons.inj hchain).1

/-- In a hierarchy that was built class by class, whatever members were set, the chain of a class
starts with it, repeats nothing and has exactly the classes that bases lead to. It keeps the order
of the class's bases and, for each class in it, that class's chain, the order of that class's bases
and its place before everything it descends from. Being another class or descending from it is to
be led there by bases, which orders the classes partially. -/
theorem chain_keeps_order (built : h.Built) (hc : h.Knows c) :
    (h.chain c).head? = some c ∧ (h.chain c).Nodup ∧
    (∀ a, a ∈ h.chain c ↔ h.Reaches c a) ∧
    (h.bases c).Sublist (h.chain c) ∧
    (∀ a ∈ h.chain c, (h.chain a).Sublist (h.chain c) ∧ (h.bases a).Sublist (h.chain c) ∧
      ∀ b, h.Reaches a b → b ≠ a → [a, b].Sublist (h.chain c)) ∧
    (∀ a, h.isSubclass c a = true ↔ h.Reaches c a) ∧
    h.isSubclass c c = true ∧
    (∀ a, h.isSubclass c a = true → h.isSubclass a c = true → a = c) ∧
    ∀ a b, h.isSubclass c a = true → h.isSubclass a b = true → h.isSubclass c b = true := by
  have hordered := built.ordered c hc
  have hancestor : ∀ a ∈ h.chain c, h.Ordered a := fun a ha =>
    built.ordered a (built.closed c hc a ha)
  have hmem : ∀ a, h.isSubclass c a = true → a ∈ h.chain c := fun a ha =>
    (hordered.mem_chain a).2 (hordered.isSubclass_iff.1 ha)
  refine ⟨rfl, hordered.nodup, hordered.mem_chain, hordered.bases, ?levels,
    fun a => hordered.isSubclass_iff, hordered.isSubclass_iff.2 .refl, ?antisymm, ?trans⟩
  case levels =>
    intro a ha
    have hkept := hordered.chains a ha
    exact ⟨hkept, (hancestor a ha).bases.trans hkept,
      fun b hb hne => ((hancestor a ha).before hb hne).trans hkept⟩
  case antisymm =>
    intro a hca hac
    have ha := hancestor a (hmem a hca)
    exact hordered.antisymm ha (hmem a hca) ((ha.mem_chain c).2 (ha.isSubclass_iff.1 hac))
  case trans =>
    intro a b hca hab
    have hfirst := hordered.isSubclass_iff.1 hca
    have hsecond := (hancestor a (hmem a hca)).isSubclass_iff.1 hab
    exact hordered.isSubclass_iff.2 (hfirst.trans hsecond)

/-- A class with two bases that share a base. -/
def diamond : Hierarchy :=
  ⟨[⟨"Root", [], [], ∅⟩, ⟨"Left", [0], [0], ∅⟩, ⟨"Right", [0], [0], ∅⟩,
    ⟨"Bottom", [1, 2], [1, 2, 0], ∅⟩]⟩

/-- The classes of the diamond can be declared one after the other. -/
theorem diamond_built : diamond.Built := by
  have hroot : empty.declare "Root" [] ∅ = .ok ⟨diamond.classes.take 1⟩ := by
    rw [declare, Ancestry.ancestors?_nil]
    rfl
  have hleft : declare ⟨diamond.classes.take 1⟩ "Left" [0] ∅ = .ok ⟨diamond.classes.take 2⟩ := by
    have : Ancestry.ancestors? (chain ⟨diamond.classes.take 1⟩) [0] = some [0] := by decide +kernel
    rw [declare, this]
    rfl
  have hright : declare ⟨diamond.classes.take 2⟩ "Right" [0] ∅ = .ok ⟨diamond.classes.take 3⟩ := by
    have : Ancestry.ancestors? (chain ⟨diamond.classes.take 2⟩) [0] = some [0] := by decide +kernel
    rw [declare, this]
    rfl
  have hbottom : declare ⟨diamond.classes.take 3⟩ "Bottom" [1, 2] ∅ = .ok diamond := by
    have : Ancestry.ancestors? (chain ⟨diamond.classes.take 3⟩) [1, 2] = some [1, 2, 0] := by
      decide +kernel
    rw [declare, this]
    rfl
  exact (((Built.empty.declare (by decide) hroot).declare (by decide) hleft).declare (by decide)
    hright).declare (by decide) hbottom

/-- In the diamond the shared base comes after both of the classes that declare it. -/
theorem chain_keeps_order_diamond :
    diamond.Built ∧ diamond.Knows 3 ∧ (diamond.chain 3).Nodup ∧
      [1, 2].Sublist (diamond.chain 3) ∧ [2, 0].Sublist (diamond.chain 3) := by
  have hknown : diamond.Knows 3 := by decide
  have horder := chain_keeps_order diamond_built hknown
  have hmem : 2 ∈ diamond.chain 3 := by decide
  have hreaches : diamond.Reaches 2 0 := .single (by decide)
  exact ⟨diamond_built, hknown, horder.2.1, horder.2.2.2.1,
    (horder.2.2.2.2.1 2 hmem).2.2 0 hreaches (by decide)⟩

end Hierarchy

end Delegation
