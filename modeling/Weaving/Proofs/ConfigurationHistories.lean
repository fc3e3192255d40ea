import Mathlib.Data.List.Perm.Basic
import Weaving.Proofs.ConfigurationChanges
import Weaving.Proofs.Turns

/-
Histories of a configuration.  Whatever leads from one world to a later one can be read as a list of
changes made to a given configuration, with other things happening in between.  From that list the
account of the configuration is taken: its advisors are those it had and those that were put in, less
those that were taken out, and its contracts are those it had with those that were given since.
-/
namespace Weaving

open scoped List

variable {κ σ ν : Type}

namespace Configuration

/-- A change that was made to a configuration, and the advisor that it took out. -/
structure Deed (κ : Type) where
  /-- The change. -/
  change : Change κ
  /-- The advisor that was taken out, if any was. -/
  removed : Option (Advisor κ)

namespace Deed

/-- The advisor that was put in. -/
def inserted (deed : Deed κ) : Option (Advisor κ) :=
  match deed.change with
  | .insertAdvisor _ a => some a
  | _ => none

/-- The contract that was added for its own sake. -/
def exposed (deed : Deed κ) : Option TypeInfo :=
  match deed.change with
  | .addInterface type => some type
  | _ => none

end Deed

/-- What several changes have made of a configuration. -/
structure Account (c : Configuration κ) (deeds : List (Deed κ)) (c' : Configuration κ) : Prop where
  /-- The changes were made to the advisors in turn. -/
  advisors : c'.advisors =
    deeds.foldl (fun advisors deed => deed.change.advisorsAfter advisors) c.advisors
  /-- No advisor comes or goes but by a change. -/
  balance : (c'.advisors ++ deeds.filterMap (·.removed)).Perm
    (c.advisors ++ deeds.filterMap (·.inserted))
  /-- No contract comes but by a change, and none goes. -/
  interfaces : c'.interfaces =
    (deeds.flatMap (·.change.given)).foldl TypeInfo.pushNew c.interfaces

/-- The contracts that changes have given and that were not exposed before. -/
def newContracts (c : Configuration κ) (deeds : List (Deed κ)) : List TypeInfo :=
  ((deeds.flatMap (·.change.given)).filter fun t => !t.isIn c.interfaces).eraseDups

variable {c c' c'' : Configuration κ} {deeds : List (Deed κ)} {change : Change κ}
  {removed : Option (Advisor κ)}

theorem Change.made_of_apply (h : change.apply c = .ok (removed, c')) :
    ¬ change.Refused c ∧ change.Made c removed c' := by
  by_cases hrefused : change.Refused c
  · obtain ⟨detail, herror⟩ := Change.apply_refused hrefused
    rw [herror] at h
    cases h
  · obtain ⟨removed', after, happly, hmade⟩ := Change.apply_made hrefused
    cases happly.symm.trans h
    exact ⟨hrefused, hmade⟩

/-- A change puts in one advisor, or takes out one, or leaves all of them. -/
theorem Change.balance (h : change.apply c = .ok (removed, c')) :
    (c'.advisors ++ removed.toList).Perm
      (c.advisors ++ (Deed.inserted ⟨change, removed⟩).toList) := by
  obtain ⟨hallowed, hmade⟩ := Change.made_of_apply h
  rw [hmade.advisors, hmade.removed]
  cases change with
  | addInterface type => exact .refl _
  | freeze => exact .refl _
  | insertAdvisor position a =>
      have hplace : position.getD c.advisors.length ≤ c.advisors.length := by
        cases position with
        | none => exact Nat.le_refl _
        | some p => exact Nat.not_lt.mp fun hlt => hallowed (.inr ⟨p, rfl, hlt⟩)
      have hinserted := List.perm_insertIdx a c.advisors hplace
      change (c.advisors.insertIdx (position.getD c.advisors.length) a ++ []).Perm
        (c.advisors ++ [a])
      rw [List.append_nil]
      exact hinserted.trans (List.perm_append_singleton a _).symm
  | removeAdvisor position =>
      have hlt : position < c.advisors.length :=
        Nat.not_le.mp fun hle => hallowed (.inr hle)
      have hfound : c.advisors[position]? = some c.advisors[position] :=
        List.getElem?_eq_getElem hlt
      have herased := List.getElem_cons_eraseIdx_perm hlt
      change (c.advisors.eraseIdx position ++ (c.advisors[position]?).toList).Perm
        (c.advisors ++ [])
      rw [hfound, List.append_nil]
      exact (List.perm_append_singleton _ _).trans herased

namespace Account

theorem refl (c : Configuration κ) : c.Account [] c := ⟨rfl, .refl _, rfl⟩

theorem other (h : c.Account deeds c') (hadvisors : c''.advisors = c'.advisors)
    (hinterfaces : c''.interfaces = c'.interfaces) : c.Account deeds c'' where
  advisors := hadvisors.trans h.advisors
  balance := hadvisors ▸ h.balance
  interfaces := hinterfaces.trans h.interfaces

theorem made (h : c.Account deeds c') (happly : change.apply c' = .ok (removed, c'')) :
    c.Account (deeds ++ [⟨change, removed⟩]) c'' where
  advisors := by
    rw [(Change.made_of_apply happly).2.advisors, h.advisors, List.foldl_append]
    rfl
  balance := by
    have hlast : ∀ (read : Deed κ → Option (Advisor κ)) (deed : Deed κ),
        (deeds ++ [deed]).filterMap read = deeds.filterMap read ++ (read deed).toList := by
      intro read deed
      rw [List.filterMap_append]
      cases hread : read deed <;> simp [hread]
    have hswap : ∀ xs ys zs : List (Advisor κ), (xs ++ ys ++ zs).Perm (xs ++ zs ++ ys) := by
      intro xs ys zs
      rw [List.append_assoc, List.append_assoc]
      exact List.perm_append_comm.append_left xs
    rw [hlast, hlast, ← List.append_assoc, ← List.append_assoc]
    calc c''.advisors ++ deeds.filterMap (·.removed) ++ removed.toList
      _ ~ c''.advisors ++ removed.toList ++ deeds.filterMap (·.removed) := hswap _ _ _
      _ ~ c'.advisors ++ (Deed.inserted ⟨change, removed⟩).toList ++
          deeds.filterMap (·.removed) := (Change.balance happly).append_right _
      _ ~ c'.advisors ++ deeds.filterMap (·.removed) ++
          (Deed.inserted ⟨change, removed⟩).toList := hswap _ _ _
      _ ~ c.advisors ++ deeds.filterMap (·.inserted) ++
          (Deed.inserted ⟨change, removed⟩).toList := h.balance.append_right _
  interfaces := by
    have hgiven : c''.interfaces = change.given.foldl TypeInfo.pushNew c'.interfaces := by
      rw [(Change.made_of_apply happly).2.interfaces, TypeInfo.foldl_pushNew]
    rw [hgiven, h.interfaces, List.flatMap_append, List.foldl_append]
    simp

/-- New contracts are exposed after those that were exposed before. -/
theorem interfaces_eq (h : c.Account deeds c') :
    c'.interfaces = c.interfaces ++ c.newContracts deeds :=
  h.interfaces.trans (TypeInfo.foldl_pushNew _ _)

end Account

end Configuration

open Weaving.Configuration (Change Deed)

namespace World

variable {host : Host κ σ ν} {id : ConfigurationId}

/-- The changes that were made to a configuration on the way to a later world. -/
inductive ChangedBy (host : Host κ σ ν) (id : ConfigurationId) (w : World κ σ ν) :
    List (Deed κ) → World κ σ ν → Prop where
  /-- Nothing has happened. -/
  | start : ChangedBy host id w [] w
  /-- Then a change was made to the configuration. -/
  | changed {deeds : List (Deed κ)} {v v' : World κ σ ν} {c c' : Configuration κ}
      {change : Change κ} {removed : Option (Advisor κ)} (before : ChangedBy host id w deeds v)
      (step : v.Step host (fun _ => True) v') (found : v.configurations[id]? = some c)
      (made : change.apply c = .ok (removed, c')) (after : v'.configurations[id]? = some c') :
      ChangedBy host id w (deeds ++ [⟨change, removed⟩]) v'
  /-- Then something else happened. -/
  | other {deeds : List (Deed κ)} {v v' : World κ σ ν} {c c' : Configuration κ}
      (before : ChangedBy host id w deeds v) (step : v.Step host (fun _ => True) v')
      (found : v.configurations[id]? = some c) (after : v'.configurations[id]? = some c')
      (advisors : c'.advisors = c.advisors) (interfaces : c'.interfaces = c.interfaces) :
      ChangedBy host id w deeds v'

variable {w w' : World κ σ ν} {c : Configuration κ} {deeds : List (Deed κ)}

theorem ChangedBy.leads (h : w.ChangedBy host id deeds w') :
    w.Leads host (fun _ => True) w' := by
  induction h with
  | start => exact .refl w
  | changed _ step _ _ _ ih => exact ih.trans step.leads
  | other _ step _ _ _ _ ih => exact ih.trans step.leads

/-- The account of a configuration follows from the changes that were made to it. -/
theorem ChangedBy.account (h : w.ChangedBy host id deeds w')
    (hc : w.configurations[id]? = some c) :
    ∃ c', w'.configurations[id]? = some c' ∧ c.Account deeds c' := by
  induction h with
  | start => exact ⟨c, hc, .refl c⟩
  | changed _ _ found made after ih =>
      obtain ⟨c₁, hc₁, haccount⟩ := ih
      obtain rfl := Option.some.inj (hc₁.symm.trans found)
      exact ⟨_, after, haccount.made made⟩
  | other _ _ found after advisors interfaces ih =>
      obtain ⟨c₁, hc₁, haccount⟩ := ih
      obtain rfl := Option.some.inj (hc₁.symm.trans found)
      exact ⟨_, after, haccount.other advisors interfaces⟩

/-- Every step is a change to the configuration, or leaves its advisors and contracts as they are. -/
theorem ChangedBy.step {v v' : World κ σ ν} (h : w.ChangedBy host id deeds v)
    (step : v.Step host (fun _ => True) v') (hc : v.configurations[id]? = some c) :
    ∃ deeds', w.ChangedBy host id deeds' v' := by
  have hstep := step
  have hkept : v'.configurations[id]? = v.configurations[id]? →
      ∃ deeds', w.ChangedBy host id deeds' v' :=
    fun hsame => ⟨deeds, h.other hstep hc (hsame.trans hc) rfl rfl⟩
  cases step with
  | madeConfiguration _ =>
      exact ⟨deeds, h.other hstep hc (getElem?_push_of_some _ hc) rfl rfl⟩
  | @configured changed c₁ change found made =>
      have hafter := Run.mapConfiguration_at found change id
      by_cases hid : id = changed
      · subst hid
        rw [if_pos rfl] at hafter
        obtain rfl := Option.some.inj (found.symm.trans hc)
        generalize change c₁ = c' at made hafter
        cases made with
        | @exposed type _ done =>
            have hmade : (Change.addInterface type).apply c₁ = .ok (none, c') := by
              rw [Change.apply, done]
              rfl
            exact ⟨_, h.changed hstep hc hmade hafter⟩
        | @inserted position a _ line done =>
            have hmade : (Change.insertAdvisor position a).apply c₁ = .ok (none, c') := by
              rw [Change.apply, done]
              rfl
            exact ⟨_, h.changed hstep hc hmade hafter⟩
        | @removed position a _ done =>
            have hmade : (Change.removeAdvisor position).apply c₁ = .ok (some a, c') := by
              rw [Change.apply, done]
              rfl
            exact ⟨_, h.changed hstep hc hmade hafter⟩
        | froze =>
            have hmade : Change.freeze.apply c₁ = .ok (none, c₁.freeze) := rfl
            exact ⟨_, h.changed hstep hc hmade hafter⟩
        | remembered _ _ => exact ⟨deeds, h.other hstep hc hafter rfl rfl⟩
      · rw [if_neg hid] at hafter
        exact hkept hafter
  | _ => exact hkept rfl

/-- Whatever happens can be told as changes to a configuration and other things. -/
theorem Leads.changedBy (h : w.Leads host (fun _ => True) w')
    (hc : w.configurations[id]? = some c) : ∃ deeds, w.ChangedBy host id deeds w' := by
  induction h with
  | refl => exact ⟨[], .start⟩
  | tail _ step ih =>
      obtain ⟨deeds, hdeeds⟩ := ih
      obtain ⟨c', hc', _⟩ := hdeeds.account hc
      exact hdeeds.step step hc'

/-- The parts of a proxy after changes to its configuration. -/
theorem ChangedBy.parts {p : ProxyId} {proxy : Proxy} {source : Source κ}
    (h : w.ChangedBy host proxy.configuration deeds w')
    (hparts : w.parts? p = some (proxy, c, source)) :
    ∃ c' change, w'.parts? p = some (proxy, c', source.mapPool change) ∧ c.Later c' ∧
      c.Account deeds c' := by
  obtain ⟨c', change, hparts', hlater⟩ := h.leads.later.parts hparts
  obtain ⟨c₁, hc₁, haccount⟩ := h.account (parts?_eq_some.mp hparts).2.1
  obtain rfl := Option.some.inj (hc₁.symm.trans (parts?_eq_some.mp hparts').2.1)
  exact ⟨c₁, change, hparts', hlater, haccount⟩

end World

end Weaving
