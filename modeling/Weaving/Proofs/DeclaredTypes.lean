import Weaving.Proofs.Hierarchy

/-
Types that were declared one after another.  Each has its position as identity and names only types
declared before it; so declared types with one identity are one type, and the hierarchy of a declared
type has no types in it but declared ones.
-/
namespace Weaving

namespace Universe.Declared

variable {u : Universe} {t s : TypeInfo}

theorem getElem?_id (hu : u.Declared) : ∀ t ∈ u.types, u.types[t.id]? = some t := by
  induction hu with
  | initial =>
      intro t ht
      rcases List.mem_cons.mp ht with rfl | ht
      · rfl
      · rw [List.mem_singleton.mp ht]
        rfl
  | @declare u spec _ _ ih =>
      intro t ht
      rcases List.mem_append.mp ht with ht | ht
      · exact (List.getElem?_append_left (List.getElem?_eq_some_iff.mp (ih t ht)).1).trans (ih t ht)
      · rw [List.mem_singleton.mp ht]
        exact List.getElem?_concat_length

/-- Declared types with one identity are one type. -/
theorem eq_of_id (hu : u.Declared) (ht : t ∈ u.types) (hs : s ∈ u.types) (h : t.id = s.id) :
    t = s := by
  have hfound := hu.getElem?_id t ht
  rw [h, hu.getElem?_id s hs] at hfound
  exact (Option.some.inj hfound).symm

theorem beq_iff (hu : u.Declared) (ht : t ∈ u.types) (hs : s ∈ u.types) :
    (t == s) = true ↔ t = s :=
  TypeInfo.beq_iff_id.trans ⟨hu.eq_of_id ht hs, congrArg TypeInfo.id⟩

theorem id_lt_length (hu : u.Declared) (ht : t ∈ u.types) : t.id < u.types.length :=
  (List.getElem?_eq_some_iff.mp (hu.getElem?_id t ht)).1

/-- The supertypes of a declared type were declared before it. -/
theorem supertypes_earlier (hu : u.Declared) :
    ∀ t ∈ u.types, ∀ s ∈ t.supertypes, s ∈ u.types ∧ s.id < t.id := by
  induction hu with
  | initial =>
      intro t ht s hs
      rcases List.mem_cons.mp ht with rfl | ht
      · cases hs
      · rw [List.mem_singleton.mp ht] at hs
        cases hs
  | @declare u spec known before ih =>
      intro t ht s hs
      rcases List.mem_append.mp ht with ht | ht
      · exact (ih t ht s hs).imp_left (List.mem_append_left _)
      · rw [List.mem_singleton.mp ht] at hs ⊢
        exact ⟨List.mem_append_left _ (known s hs), before.id_lt_length (known s hs)⟩

theorem supertypes_mem (hu : u.Declared) : ∀ t ∈ u.types, ∀ s ∈ t.supertypes, s ∈ u.types :=
  fun t ht s hs => (hu.supertypes_earlier t ht s hs).1

/-- What a declared type reaches is declared. -/
theorem reaches_mem (hu : u.Declared) (h : t.Reaches s) (ht : t ∈ u.types) : s ∈ u.types := by
  induction h with
  | refl t => exact ht
  | up edge _ ih => exact ih (hu.supertypes_mem _ ht _ edge)

theorem root_mem (hu : u.Declared) : TypeInfo.root ∈ u.types := by
  induction hu with
  | initial => exact List.mem_cons_self
  | declare _ _ _ ih => exact List.mem_append_left _ ih

/-- The root is the root by its identity alone. -/
theorem isRoot_iff (hu : u.Declared) (ht : t ∈ u.types) : t.isRoot = true ↔ t = TypeInfo.root :=
  hu.beq_iff ht hu.root_mem

/-- A declared type is assignable to the root and to the types that it reaches. -/
theorem isAssignableTo_iff (hu : u.Declared) (ht : t ∈ u.types) (hs : s ∈ u.types) :
    t.isAssignableTo s = true ↔ s = TypeInfo.root ∨ t.Reaches s := by
  rw [TypeInfo.isAssignableTo, Bool.or_eq_true, hu.isRoot_iff hs, TypeInfo.anyAncestor_iff]
  refine or_congr_right ⟨?_, fun h => ⟨s, h, TypeInfo.beq_iff_id.mpr rfl⟩⟩
  rintro ⟨r, hreaches, hsame⟩
  obtain rfl := (hu.beq_iff (hu.reaches_mem hreaches ht) hs).mp hsame
  exact hreaches

end Universe.Declared

end Weaving
