import Delegation.Call
import Delegation.Proofs.Captured
import Delegation.Proofs.Conversion
import Delegation.Proofs.Declaring
/-!
# Parameters as the local names of a body

What the signature and the body of a native method have to do with each other.
The signature is made by one declaration for each parameter, the body reads
each parameter into a local name and hands these names on. Where the signature
can be made no two parameters have one name, so no local name takes the place
of another one, and what a parameter is read from is there in every binding.
-/

namespace Delegation

open Source

namespace Declaration

end Declaration

/-- Whether a parameter takes one value. -/
def Role.isSingle {δ : Type} (r : Role δ) : Bool := !r.isVarargs && !r.isVarkw

/-- A parameter that does not take one value collects what is left. -/
theorem Role.single_or_collects {δ : Type} (r : Role δ) :
    r.isSingle = true ∨ r = .varargs ∨ r = .varkw := by
  cases r <;> simp [isSingle, isVarargs, isVarkw]

namespace NativeParam

variable {ps : List (NativeParam Shape Value)} {p : NativeParam Shape Value}

/-- At most one parameter of a list collects values given by position, and at most one keywords. -/
structure Collecting (ps : List (NativeParam Shape Value)) : Prop where
  /-- No two collect values given by position. -/
  varargs : ps.Pairwise fun p q => p.role.isVarargs = true → ¬ q.role.isVarargs = true
  /-- No two collect keywords. -/
  varkw : ps.Pairwise fun p q => p.role.isVarkw = true → ¬ q.role.isVarkw = true

/-- What a signature has of the parameters that it was made for. -/
structure DeclaredBy (ps : List (NativeParam Shape Value)) (s : Signature) : Prop where
  /-- The parameters of one value, in order. -/
  single : s.paramNames = (ps.filter (·.role.isSingle)).map (·.name)
  /-- The one that collects values given by position. -/
  varargs : ∀ p ∈ ps, p.role = .varargs → s.varargs = some p.name
  /-- The one that collects keywords. -/
  varkw : ∀ p ∈ ps, p.role = .varkw → s.varkw = some p.name

/-- No two parameters of a signature that could be made have one name, whatever they are to it. -/
theorem DeclaredBy.names_nodup {s : Signature} (h : DeclaredBy ps s) (hps : Collecting ps) :
    (ps.map (·.name)).Nodup := by
  obtain ⟨-, hfreeArgs, hfreeKw, hshared⟩ := Signature.fault?_eq_none_iff.1 s.sound
  have hsingle : ∀ p ∈ ps, p.role.isSingle = true → p.name ∈ s.params.map (·.name) := by
    intro p hp hrole
    change p.name ∈ s.paramNames
    rw [h.single]
    exact List.mem_map_of_mem (List.mem_filter.2 ⟨hp, hrole⟩)
  have hsingles : ps.Pairwise fun p q =>
      p.role.isSingle = true → q.role.isSingle = true → p.name ≠ q.name := by
    have hnodup := s.paramNames_nodup
    rw [h.single] at hnodup
    exact List.pairwise_filter.1 (List.pairwise_map.1 hnodup)
  have hmixed : ∀ p ∈ ps, ∀ q ∈ ps, p.role.isSingle = true →
      q.role = .varargs ∨ q.role = .varkw → p.name ≠ q.name := by
    rintro p hp q hq hrole (hargs | hkw) hname
    · exact hfreeArgs q.name (h.varargs q hq hargs) (hname ▸ hsingle p hp hrole)
    · exact hfreeKw q.name (h.varkw q hq hkw) (hname ▸ hsingle p hp hrole)
  have hsinks : ∀ p ∈ ps, ∀ q ∈ ps, p.role = .varargs → q.role = .varkw → p.name ≠ q.name := by
    intro p hp q hq hargs hkw hname
    exact hshared p.name (h.varargs p hp hargs) (hname ▸ h.varkw q hq hkw)
  refine List.pairwise_map.2 (((hsingles.and hps.varargs).and hps.varkw).imp_of_mem ?_)
  rintro p q hp hq ⟨⟨hboth, hargs⟩, hkw⟩
  rcases p.role.single_or_collects with hpsingle | hpargs | hpkw
  · rcases q.role.single_or_collects with hqsingle | hqcollects
    · exact hboth hpsingle hqsingle
    · exact hmixed p hp q hq hpsingle hqcollects
  · rcases q.role.single_or_collects with hqsingle | hqargs | hqkw
    · exact (hmixed q hq p hp hqsingle (.inl hpargs)).symm
    · exact absurd ((Role.isVarargs_iff _).2 hqargs) (hargs ((Role.isVarargs_iff _).2 hpargs))
    · exact hsinks p hp q hq hpargs hqkw
  · rcases q.role.single_or_collects with hqsingle | hqargs | hqkw
    · exact (hmixed q hq p hp hqsingle (.inr hpkw)).symm
    · exact (hsinks q hq p hp hqargs hpkw).symm
    · exact absurd ((Role.isVarkw_iff _).2 hqkw) (hkw ((Role.isVarkw_iff _).2 hpkw))

end NativeParam

/-- What a name stands for in the body of a call. -/
inductive Local where
  /-- The native value. -/
  | native
  /-- The binding of the call. -/
  | bound (b : Binding)
  /-- What a parameter was read as. -/
  | value (shape : Shape) (x : shape.Carrier)

/-- The names of a body with what they stand for, the latest first. The mark of a raw identifier is
no part of a name. -/
abbrev Locals := List (String × Local)

namespace Locals

/-- What an identifier stands for: the latest of its name counts. -/
def meaning? (ls : Locals) (ident : String) : Option Local :=
  (ls.find? (·.1 == unraw ident)).map (·.2)

/-- The name under which a body finds the native value. -/
def nativeName : String := "__this"

/-- The name under which a body finds the binding. -/
def boundName : String := "__bound"

/-- The names at the start of a body. -/
def start (b : Binding) : Locals := [(nativeName, .native), (boundName, .bound b)]

/-- The names after a step: its target stands for what it reads from the binding. It makes no
sense if the name of the binding stands for something else. -/
def take (ls : Locals) (e : Extraction Shape) : Option (Except ConversionError Locals) :=
  match ls.meaning? boundName with
  | some (.bound b) => some ((e.read b).map fun x => (unraw e.target, .value e.type x) :: ls)
  | _ => none

end Locals

/-- The values of a row, as the names of a body stand for them. -/
def Extraction.Row.values : (es : List (Extraction Shape)) → Row es → List Local
  | [], () => []
  | e :: es, (x, rest) => .value e.type x :: values es rest

namespace Locals

variable {ls : Locals} {b : Binding} {es : List (Extraction Shape)}

variable {idents : List String} {given : List Local}

end Locals

/-- The body of a method finds what it needs under the names that it has for it: the native value
when it calls the native method, and the binding whenever it reads a parameter. -/
structure MethodInterface.Scoped (m : MethodInterface Shape Value) : Prop where
  /-- No parameter takes the name of the native value. -/
  native : ∀ p ∈ m.params, p.name ≠ Locals.nativeName
  /-- No parameter but the last takes the name of the binding. -/
  bound : ∀ p ∈ m.params.dropLast, p.name ≠ Locals.boundName

end Delegation
