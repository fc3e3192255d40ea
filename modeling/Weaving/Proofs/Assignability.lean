import Mathlib.Order.Defs.Unbundled
import Weaving.Proofs.DeclaredTypes

/-
Assignability as an order.  Supertypes are declared first, so that no way up a hierarchy comes back
to where it started, and types that are assignable to each other are one type.  The root is above
every type, also where no supertype edge leads to it; apart from it, assignability is what supertype
edges reach.
-/
namespace Weaving.Universe

namespace Declared

variable {u : Universe} {t s r : TypeInfo}

theorem id_le_of_reaches (hu : u.Declared) (h : t.Reaches s) (ht : t ∈ u.types) : s.id ≤ t.id := by
  induction h with
  | refl t => exact Nat.le_refl _
  | up edge _ ih =>
      obtain ⟨hs, hearlier⟩ := hu.supertypes_earlier _ ht _ edge
      exact Nat.le_trans (ih hs) (Nat.le_of_lt hearlier)

/-- No supertype of a declared type leads back to it. -/
theorem not_reaches_of_supertype (hu : u.Declared) (ht : t ∈ u.types) (edge : s ∈ t.supertypes) :
    ¬ s.Reaches t := by
  intro hback
  obtain ⟨hs, hearlier⟩ := hu.supertypes_earlier t ht s edge
  exact Nat.not_lt_of_le (hu.id_le_of_reaches hback hs) hearlier

theorem eq_of_reaches (hu : u.Declared) (ht : t ∈ u.types) (hts : t.Reaches s)
    (hst : s.Reaches t) : t = s := by
  cases hts with
  | refl => rfl
  | up edge rest => exact absurd (rest.trans hst) (hu.not_reaches_of_supertype ht edge)

theorem isAssignableTo_root (hu : u.Declared) (ht : t ∈ u.types) : t.isAssignableTo .root = true :=
  (hu.isAssignableTo_iff ht hu.root_mem).mpr (.inl rfl)

/-- Only the root stands above the root. -/
theorem root_isAssignableTo_iff (hu : u.Declared) (ht : t ∈ u.types) :
    TypeInfo.root.isAssignableTo t = true ↔ t = .root :=
  (hu.isAssignableTo_iff hu.root_mem ht).trans (or_iff_left_of_imp TypeInfo.eq_root_of_reaches)

theorem isAssignableTo_trans (hu : u.Declared) (ht : t ∈ u.types) (hs : s ∈ u.types)
    (hr : r ∈ u.types) (hts : t.isAssignableTo s = true) (hsr : s.isAssignableTo r = true) :
    t.isAssignableTo r = true := by
  rcases (hu.isAssignableTo_iff ht hs).mp hts with rfl | habove
  · -- the step to the root need not follow an edge, so what comes after it has to end there
    rw [(hu.root_isAssignableTo_iff hr).mp hsr]
    exact hu.isAssignableTo_root ht
  · rw [hu.isAssignableTo_iff hs hr] at hsr
    rw [hu.isAssignableTo_iff ht hr]
    exact hsr.imp_right habove.trans

theorem isAssignableTo_antisymm (hu : u.Declared) (ht : t ∈ u.types) (hs : s ∈ u.types)
    (hts : t.isAssignableTo s = true) (hst : s.isAssignableTo t = true) : t = s := by
  rcases (hu.isAssignableTo_iff ht hs).mp hts with rfl | habove
  · exact (hu.root_isAssignableTo_iff ht).mp hst
  · rcases (hu.isAssignableTo_iff hs ht).mp hst with rfl | hback
    · exact (TypeInfo.eq_root_of_reaches habove).symm
    · exact hu.eq_of_reaches ht habove hback

end Declared

/-- The declared types are partially ordered by assignability, where types of one identity are one
type.  No way up along supertype edges leads back.  The root is above every type and below none but
itself; to any other type exactly those are assignable that reach it. -/
theorem assignability_orders_types (u : Universe) (hu : u.Declared) :
    IsPartialOrder {t // t ∈ u.types} (fun t s => t.1.isAssignableTo s.1 = true) ∧
    (∀ t ∈ u.types, ∀ s ∈ u.types, (t == s) = true ↔ t = s) ∧
    (∀ t ∈ u.types, ∀ s ∈ t.supertypes, ¬ s.Reaches t) ∧
    (∀ t ∈ u.types, t.isAssignableTo .root = true) ∧
    (∀ t ∈ u.types, TypeInfo.root.isAssignableTo t = true ↔ t = .root) ∧
    ∀ t ∈ u.types, ∀ s ∈ u.types, s ≠ .root → (t.isAssignableTo s = true ↔ t.Reaches s) := by
  refine ⟨?order, fun t ht s hs => hu.beq_iff ht hs,
    fun t ht s edge => hu.not_reaches_of_supertype ht edge, fun t ht => hu.isAssignableTo_root ht,
    fun t ht => hu.root_isAssignableTo_iff ht, ?edges⟩
  case order =>
    exact {
      refl := fun t => t.1.isAssignableTo_self
      trans := fun t s r => hu.isAssignableTo_trans t.2 s.2 r.2
      antisymm := fun t s hts hst => Subtype.ext (hu.isAssignableTo_antisymm t.2 s.2 hts hst) }
  case edges =>
    intro t ht s hs hroot
    exact (hu.isAssignableTo_iff ht hs).trans (or_iff_right hroot)

section Diamond

def declaredNode : TypeInfo × Universe := initial.declare { name := "Node", contract := true }

def declaredBranch : TypeInfo × Universe :=
  declaredNode.2.declare { name := "Branch", supertypes := [declaredNode.1] }

/-- Another type of the same name. -/
def declaredTwin : TypeInfo × Universe :=
  declaredBranch.2.declare { name := "Branch", supertypes := [declaredNode.1] }

/-- A type with the root's name, a supertype that it names twice, and two ways up to one contract. -/
def declaredDiamond : TypeInfo × Universe :=
  declaredTwin.2.declare
    { name := "Object", supertypes := [declaredBranch.1, declaredTwin.1, declaredBranch.1] }

theorem declaredDiamond_declared : declaredDiamond.2.Declared := by
  have hnode : declaredNode.2.Declared := .declare _ (fun _ h => nomatch h) .initial
  have hbranch : declaredBranch.2.Declared :=
    .declare _ (List.forall_mem_singleton.mpr (List.mem_of_getElem? (i := 2) rfl)) hnode
  have htwin : declaredTwin.2.Declared :=
    .declare _ (List.forall_mem_singleton.mpr (List.mem_of_getElem? (i := 2) rfl)) hbranch
  have hbranchMem : declaredBranch.1 ∈ declaredTwin.2.types := List.mem_of_getElem? (i := 3) rfl
  have htwinMem : declaredTwin.1 ∈ declaredTwin.2.types := List.mem_of_getElem? (i := 4) rfl
  refine .declare _ ?_ htwin
  simp only [List.forall_mem_cons]
  exact ⟨hbranchMem, htwinMem, hbranchMem, fun _ h => nomatch h⟩

/-- The contract is above the type with the root's name, and not below it; the root itself is above the
contract, although no edge leads there.  Two types of one name stay apart. -/
theorem assignability_orders_types_diamond :
    declaredDiamond.2.Declared ∧
    declaredDiamond.1.isAssignableTo declaredNode.1 = true ∧
    declaredNode.1.isAssignableTo declaredDiamond.1 = false ∧
    declaredNode.1.isAssignableTo .root = true ∧ ¬ declaredNode.1.Reaches .root ∧
    declaredBranch.1.name = declaredTwin.1.name ∧ ¬ declaredBranch.1 = declaredTwin.1 ∧
    ¬ declaredBranch.1.Reaches declaredTwin.1 := by
  obtain ⟨order, same, _, top, _, edges⟩ :=
    assignability_orders_types declaredDiamond.2 declaredDiamond_declared
  have hnode : declaredNode.1 ∈ declaredDiamond.2.types := List.mem_of_getElem? (i := 2) rfl
  have hbranch : declaredBranch.1 ∈ declaredDiamond.2.types := List.mem_of_getElem? (i := 3) rfl
  have htwin : declaredTwin.1 ∈ declaredDiamond.2.types := List.mem_of_getElem? (i := 4) rfl
  have hdiamond : declaredDiamond.1 ∈ declaredDiamond.2.types := List.mem_of_getElem? (i := 5) rfl
  have hroot {t : TypeInfo} (h : t.isRoot = false) : t ≠ .root := by
    rintro rfl
    cases h
  have hup : declaredDiamond.1.isAssignableTo declaredNode.1 = true :=
    (edges _ hdiamond _ hnode (hroot rfl)).mpr
      (.up (.head _) (.up (.head _) (.refl declaredNode.1)))
  refine ⟨declaredDiamond_declared, hup, ?_, top _ hnode, ?_, rfl, ?_, ?_⟩
  · refine Bool.eq_false_iff.mpr fun hdown => ?_
    have hone := order.antisymm ⟨_, hdiamond⟩ ⟨_, hnode⟩ hup hdown
    cases congrArg (·.1.id) hone
  · intro h
    cases TypeInfo.anyAncestor_iff.mpr ⟨_, h, (rfl : TypeInfo.root.isRoot = true)⟩
  · rw [← same _ hbranch _ htwin]
    decide
  · rw [← edges _ hbranch _ htwin (hroot rfl)]
    decide

end Diamond

end Weaving.Universe
