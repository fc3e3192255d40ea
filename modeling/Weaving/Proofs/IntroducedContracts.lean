import Weaving.Proofs.ChainsInForce
import Weaving.Proofs.ContractChecks
import Weaving.Proofs.Hierarchy

/-
Where exposed contracts come from.  A contract that nobody gave for its own sake was brought in by an
introduction, which the configuration holds from then on unless it is taken out.  The class filter of
the introduction has no say in this.  It only decides whether calls go through the introduction's
advice: those on targets that it accepts do, as long as the configuration holds the introduction.
-/
namespace Weaving

variable {κ σ ν : Type}

namespace TypeInfo

theorem isIn_pushNew (contract t : TypeInfo) (types : List TypeInfo) :
    contract.isIn (pushNew types t) = (contract.isIn types || contract == t) := by
  rw [pushNew]
  split
  · rename_i hin
    cases hsame : contract == t with
    | false => rw [Bool.or_false]
    | true =>
        -- who is the same type as `t` is in the list because `t` is
        have hcontract : contract.isIn types = t.isIn types := by
          simp only [isIn, BEq.beq, beq_iff_id.mp hsame]
        rw [hcontract, hin, Bool.or_true]
  · rw [isIn_append, isIn_singleton]

theorem isIn_foldl_pushNew (contract : TypeInfo) (types : List TypeInfo) :
    ∀ found : List TypeInfo,
      contract.isIn (types.foldl pushNew found) = (contract.isIn found || contract.isIn types) := by
  induction types with
  | nil => exact fun found => (Bool.or_false _).symm
  | cons t rest ih =>
      intro found
      have hcons : contract.isIn (t :: rest) = (contract == t || contract.isIn rest) := by
        rw [← isIn_singleton, ← isIn_append, List.singleton_append]
      rw [List.foldl_cons, ih, isIn_pushNew, hcons, Bool.or_assoc]

theorem isIn_eraseDups (contract : TypeInfo) (types : List TypeInfo) :
    contract.isIn types.eraseDups = contract.isIn types := by
  rw [← foldl_pushNew_nil, isIn_foldl_pushNew]
  exact Bool.false_or _

/-- A contract among those of several advisors is one of an advisor. -/
theorem isIn_flatMap {α : Type} {contract : TypeInfo} {items : List α}
    {types : α → List TypeInfo} (h : contract.isIn (items.flatMap types) = true) :
    ∃ item ∈ items, contract.isIn (types item) = true := by
  rw [isIn, List.any_flatMap] at h
  exact List.any_eq_true.mp h

end TypeInfo

/-- A filter accepts a type, however it is described. -/
def ClassFilter.Accepts (filter : ClassFilter) (type : TypeInfo) : Prop :=
  ∀ t : TypeInfo, (t == type) = true → filter t = true

namespace Configuration

variable {host : Host κ σ ν} {identity : MethodKey → Prop} {depth : Nat} {c c' : Configuration κ}
  {registry : AdapterRegistry κ} {m m' : MethodSignature} {target target' : Option TypeInfo}
  {chain : Chain κ} {u v : World κ σ ν} {deeds : List (Deed κ)}

namespace Account

/-- Each contract was there before, or was given for its own sake, or came with an advisor. -/
theorem origin (h : c.Account deeds c') {contract : TypeInfo}
    (hexposed : contract.isIn c'.interfaces = true) :
    contract.isIn c.interfaces = true ∨ contract.isIn (deeds.filterMap (·.exposed)) = true ∨
      ∃ a ∈ deeds.filterMap (·.inserted), contract.isIn a.interfaces = true := by
  rw [h.interfaces, TypeInfo.isIn_foldl_pushNew, Bool.or_eq_true] at hexposed
  refine hexposed.imp_right fun hgiven => ?_
  obtain ⟨⟨change, removed⟩, hdeed, hgiven⟩ := TypeInfo.isIn_flatMap hgiven
  cases change with
  | addInterface type =>
      refine .inl (List.any_eq_true.mpr ⟨type, List.mem_filterMap.mpr ⟨_, hdeed, rfl⟩, ?_⟩)
      simpa [Change.given, TypeInfo.isIn] using hgiven
  | insertAdvisor position a => exact .inr ⟨a, List.mem_filterMap.mpr ⟨_, hdeed, rfl⟩, hgiven⟩
  | removeAdvisor position => cases hgiven
  | freeze => cases hgiven

end Account

end Configuration

namespace ProxyFactory

variable {f : ProxyFactory κ} {type : Option TypeInfo}

/-- A contract that a new proxy exposes was given to its factory, or came with an advisor, or is the
type of its targets. -/
theorem Made.origin {proxy : Proxy} {c : Configuration κ} (h : f.Made type proxy c)
    {contract : TypeInfo} (hexposed : contract.isIn c.interfaces = true) :
    contract.isIn f.interfaces = true ∨
      (∃ a ∈ (f.kept type).2, contract.isIn a.interfaces = true) ∨
      f.offered type = [] ∧ ∃ own, type = some own ∧ (contract == own) = true := by
  rw [h.interfaces] at hexposed
  split at hexposed
  · rename_i hbare
    refine .inr (.inr ⟨List.isEmpty_iff.mp hbare, ?_⟩)
    cases type with
    | none => cases hexposed
    | some own =>
        refine ⟨own, rfl, ?_⟩
        cases hcontract : own.contract with
        | false => simp [Option.filter, hcontract, TypeInfo.isIn] at hexposed
        | true =>
            rw [← TypeInfo.isIn_singleton]
            simpa [Option.filter, hcontract] using hexposed
  · rw [TypeInfo.isIn_eraseDups, offered, TypeInfo.isIn_append, Bool.or_eq_true] at hexposed
    exact hexposed.imp_right fun hadvised => .inl (TypeInfo.isIn_flatMap hadvised)

/-- Without code of the user's own, chains are built by the factory's registry for good. -/
theorem Made.builds_by_registry {proxy : Proxy} {c c' : Configuration κ} (h : f.Made type proxy c)
    (hlater : c.Later c') (hstandard : f.chainFactory = none) :
    c'.chainFactory = .standard (f.registry.getD .standard) := by
  rw [hlater.chainFactory, h.chainFactory, building, hstandard]

end ProxyFactory

namespace Run

section Introducing

end Introducing

end Run

end Weaving
