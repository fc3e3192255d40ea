import Weaving.TypeInfo

/-
The hierarchy of a type: what its supertype edges reach.  A search through the hierarchy finds
exactly the types that are reached.
-/
namespace Weaving.TypeInfo

/-- Being the same type is having the same identity. -/
theorem beq_iff_id {t other : TypeInfo} : (t == other) = true ↔ t.id = other.id := by
  change (t.id == other.id) = true ↔ _
  exact beq_iff_eq

/-- A type reaches another by zero or more supertype edges. -/
inductive Reaches : TypeInfo → TypeInfo → Prop where
  | refl (t : TypeInfo) : Reaches t t
  | up {t s u : TypeInfo} (edge : s ∈ t.supertypes) (rest : Reaches s u) : Reaches t u

theorem Reaches.trans {t s u : TypeInfo} (hts : t.Reaches s) (hsu : s.Reaches u) : t.Reaches u := by
  induction hts with
  | refl t => exact hsu
  | up edge _ ih => exact .up edge (ih hsu)

theorem sizeOf_lt_of_mem_supertypes {t s : TypeInfo} (h : s ∈ t.supertypes) :
    sizeOf s < sizeOf t := by
  obtain ⟨id, name, supertypes, contract, definesEquals, definesHash⟩ := t
  have hlist : sizeOf s < sizeOf supertypes := List.sizeOf_lt_of_mem h
  rw [TypeInfo.mk.sizeOf_spec]
  omega

/-- What holds of a type when it holds of its supertypes holds of all types. -/
theorem inductionOn {P : TypeInfo → Prop} (t : TypeInfo)
    (step : ∀ t, (∀ s ∈ t.supertypes, P s) → P t) : P t :=
  step t fun s _ => inductionOn s step
termination_by sizeOf t
decreasing_by exact sizeOf_lt_of_mem_supertypes ‹_›

/-- A search through a hierarchy succeeds if it meets a type that passes the test. -/
theorem anyAncestor_iff {test : TypeInfo → Bool} {t : TypeInfo} :
    t.anyAncestor test = true ↔ ∃ u, t.Reaches u ∧ test u = true := by
  constructor
  · induction t using inductionOn with
    | step t ih =>
        intro h
        rw [anyAncestor_eq, Bool.or_eq_true, List.any_eq_true] at h
        rcases h with hself | ⟨s, hs, hbelow⟩
        · exact ⟨t, .refl t, hself⟩
        · obtain ⟨u, hu, htest⟩ := ih s hs hbelow
          exact ⟨u, .up hs hu, htest⟩
  · rintro ⟨u, hreaches, htest⟩
    induction hreaches with
    | refl t =>
        rw [anyAncestor_eq, htest]
        rfl
    | up edge _ ih =>
        rw [anyAncestor_eq, Bool.or_eq_true, List.any_eq_true]
        exact .inr ⟨_, edge, ih htest⟩

theorem isAssignableTo_self (t : TypeInfo) : t.isAssignableTo t = true := by
  rw [isAssignableTo_eq]
  simp [BEq.beq]

/-- The root has no supertypes, so it reaches only itself. -/
theorem eq_root_of_reaches {t : TypeInfo} (h : root.Reaches t) : t = root := by
  cases h with
  | refl => rfl
  | up edge _ => cases edge

end Weaving.TypeInfo
