import Weaving.Access
import Weaving.Proofs.Histories

/-
Changing a configuration.  A change is refused if the configuration is frozen or the change names a
position that there is not, and then nothing at all has happened.  A change that is made inserts or
removes one advisor, or exposes contracts after those exposed before.  No type is ever exposed twice,
and a frozen configuration has its advisors and contracts for good.
-/
namespace Weaving

variable {κ σ ν : Type}

namespace TypeInfo

theorem isIn_append (t : TypeInfo) (left right : List TypeInfo) :
    t.isIn (left ++ right) = (t.isIn left || t.isIn right) :=
  List.any_append

theorem isIn_singleton (t other : TypeInfo) : t.isIn [other] = (t == other) := by
  change (other.id == t.id || false) = (t.id == other.id)
  rw [Bool.or_false, Bool.beq_comm]

/-- What is pushed onto a list of types is appended in order, as far as it is not there yet. -/
theorem foldl_pushNew (types : List TypeInfo) :
    ∀ found : List TypeInfo,
      types.foldl pushNew found = found ++ (types.filter fun t => !t.isIn found).eraseDups := by
  induction types with
  | nil => exact fun found => (List.append_nil found).symm
  | cons t rest ih =>
      intro found
      rw [List.foldl_cons, pushNew, ih]
      by_cases hin : t.isIn found = true
      · rw [if_pos hin, List.filter_cons_of_neg (by simp [hin])]
      · have hlater : (rest.filter fun u => !u.isIn (found ++ [t])) =
            (rest.filter fun u => !u.isIn found).filter fun u => !(u == t) := by
          rw [List.filter_filter]
          refine List.filter_congr fun u _ => ?_
          rw [isIn_append, isIn_singleton, Bool.not_or, Bool.and_comm]
        rw [if_neg hin, List.filter_cons_of_pos (by simp [hin]), List.eraseDups_cons, hlater,
          List.append_assoc, List.singleton_append]

/-- The types of a list are different from each other. -/
def Distinct (types : List TypeInfo) : Prop := types.Pairwise fun a b => a.id ≠ b.id

theorem Distinct.pushNew {types : List TypeInfo} (h : Distinct types) (t : TypeInfo) :
    Distinct (TypeInfo.pushNew types t) := by
  rw [TypeInfo.pushNew]
  split
  · exact h
  · rename_i hin
    refine List.pairwise_append.mpr ⟨h, List.pairwise_singleton _ t, fun a ha b hb hsame => ?_⟩
    obtain rfl := List.mem_singleton.mp hb
    exact hin (List.any_eq_true.mpr ⟨a, ha, decide_eq_true hsame⟩)

theorem Distinct.foldl_pushNew {types : List TypeInfo} (more : List TypeInfo) :
    Distinct types → Distinct (more.foldl TypeInfo.pushNew types) := by
  induction more generalizing types with
  | nil => exact fun h => h
  | cons t rest ih => exact fun h => ih (h.pushNew t)

end TypeInfo

/-- A list with something put at a position of it. -/
theorem take_append_cons_drop {α : Type} (x : α) :
    ∀ {xs : List α} {i : Nat}, i ≤ xs.length → xs.take i ++ x :: xs.drop i = xs.insertIdx i x
  | _, 0, _ => by simp
  | [], _ + 1, h => absurd h (Nat.not_succ_le_zero _)
  | y :: ys, i + 1, h => by
      rw [List.take_succ_cons, List.drop_succ_cons, List.cons_append, List.insertIdx_succ_cons,
        take_append_cons_drop x (Nat.le_of_succ_le_succ h)]

namespace Configuration

/-- The changes that can be asked of a configuration. -/
inductive Change (κ : Type) where
  | addInterface (type : TypeInfo)
  | insertAdvisor (position : Option Nat) (a : Advisor κ)
  | removeAdvisor (position : Nat)
  | freeze

namespace Change

/-- The request that asks for a change. -/
@[reducible] def request (id : ConfigurationId) : Change κ → Request κ σ ν
  | .addInterface type => .addInterface id type
  | .insertAdvisor position a => .insertAdvisor id position a
  | .removeAdvisor position => .removeAdvisor id position
  | .freeze => .freeze id

/-- What the answer to a change tells: why it was refused, or which advisor was taken out. -/
def told {id : ConfigurationId} :
    (change : Change κ) → (change.request id : Request κ σ ν).Answer →
      Except AopError (Option (Advisor κ))
  | .addInterface _, answer => answer.map fun _ => none
  | .insertAdvisor _ _, answer => answer.map fun _ => none
  | .removeAdvisor _, answer => answer.map some
  | .freeze, _ => .ok none

/-- The changes that a configuration does not allow. -/
def Refused (c : Configuration κ) : Change κ → Prop
  | .addInterface _ => c.frozen = true
  | .insertAdvisor position _ =>
    c.frozen = true ∨ ∃ p, position = some p ∧ c.advisors.length < p
  | .removeAdvisor position => c.frozen = true ∨ c.advisors.length ≤ position
  | .freeze => False

/-- The contracts that a change gives. -/
def given : Change κ → List TypeInfo
  | .addInterface type => [type]
  | .insertAdvisor _ a => a.interfaces
  | _ => []

/-- The advisors after a change. -/
def advisorsAfter (advisors : List (Advisor κ)) : Change κ → List (Advisor κ)
  | .insertAdvisor position a => advisors.insertIdx (position.getD advisors.length) a
  | .removeAdvisor position => advisors.eraseIdx position
  | _ => advisors

/-- The advisor that a change takes out. -/
def removedFrom (advisors : List (Advisor κ)) : Change κ → Option (Advisor κ)
  | .removeAdvisor position => advisors[position]?
  | _ => none

/-- Whether a configuration is frozen after a change. -/
def frozenAfter (frozen : Bool) : Change κ → Bool
  | .freeze => true
  | _ => frozen

/-- A configuration before and after a change that was made, and the advisor that was taken out. -/
structure Made (change : Change κ) (c : Configuration κ) (removed : Option (Advisor κ))
    (c' : Configuration κ) : Prop where
  advisors : c'.advisors = change.advisorsAfter c.advisors
  removed : removed = change.removedFrom c.advisors
  interfaces : c'.interfaces =
    c.interfaces ++ (change.given.filter fun t => !t.isIn c.interfaces).eraseDups
  frozen : c'.frozen = change.frozenAfter c.frozen
  kept : c'.flags = c.flags ∧ c'.source = c.source ∧ c'.methods = c.methods ∧
    c'.chainFactory = c.chainFactory

/-- Makes a change as far as it is allowed. -/
def apply (c : Configuration κ) :
    Change κ → Except AopError (Option (Advisor κ) × Configuration κ)
  | .addInterface type => (c.addInterface type).map (none, ·)
  | .insertAdvisor position a => (c.insertAdvisor position a).map fun changed => (none, changed.1)
  | .removeAdvisor position => (c.removeAdvisor position).map fun changed => (some changed.1, changed.2)
  | .freeze => .ok (none, c.freeze)

variable {c : Configuration κ}

theorem ensureMutable_of_frozen (hfrozen : c.frozen = true) (change : String) :
    ∃ detail, c.ensureMutable change = .error (.configuration detail) :=
  ⟨_, if_pos hfrozen⟩

theorem ensureMutable_of_unfrozen (hfrozen : ¬ c.frozen = true) (change : String) :
    c.ensureMutable change = .ok () :=
  if_neg hfrozen

/-- A change that is not allowed is refused with the reason. -/
theorem apply_refused {change : Change κ} (h : change.Refused c) :
    ∃ detail, change.apply c = .error (.configuration detail) := by
  cases change with
  | addInterface type =>
      obtain ⟨detail, hrefused⟩ := ensureMutable_of_frozen h "add interface"
      exact ⟨detail, by simp only [apply, Configuration.addInterface, hrefused]; rfl⟩
  | insertAdvisor position a =>
      by_cases hfrozen : c.frozen = true
      · obtain ⟨detail, hrefused⟩ := ensureMutable_of_frozen hfrozen "add advisor"
        exact ⟨detail, by simp only [apply, Configuration.insertAdvisor, hrefused]; rfl⟩
      · obtain ⟨p, rfl, hout⟩ := h.resolve_left hfrozen
        have hmutable := ensureMutable_of_unfrozen hfrozen "add advisor"
        exact ⟨_, by
          simp only [apply, Configuration.insertAdvisor, hmutable, Option.getD_some]
          change Except.map _ (if _ then _ else _) = _
          rw [if_pos hout]
          rfl⟩
  | removeAdvisor position =>
      by_cases hfrozen : c.frozen = true
      · obtain ⟨detail, hrefused⟩ := ensureMutable_of_frozen hfrozen "remove advisor"
        exact ⟨detail, by simp only [apply, Configuration.removeAdvisor, hrefused]; rfl⟩
      · have hnone := List.getElem?_eq_none (h.resolve_left hfrozen)
        have hmutable := ensureMutable_of_unfrozen hfrozen "remove advisor"
        exact ⟨_, by
          simp only [apply, Configuration.removeAdvisor, hmutable, hnone]
          rfl⟩
  | freeze => exact h.elim

/-- A change that is allowed is made. -/
theorem apply_made {change : Change κ} (h : ¬ change.Refused c) :
    ∃ removed c', change.apply c = .ok (removed, c') ∧ change.Made c removed c' := by
  cases change with
  | addInterface type =>
      have hmutable := ensureMutable_of_unfrozen h "add interface"
      refine ⟨none, { c with interfaces := TypeInfo.pushNew c.interfaces type }, ?_, ?_⟩
      · simp only [apply, Configuration.addInterface, hmutable]
        rfl
      · exact ⟨rfl, rfl, TypeInfo.foldl_pushNew [type] c.interfaces, rfl, rfl, rfl, rfl, rfl⟩
  | insertAdvisor position a =>
      obtain ⟨hfrozen, hin⟩ := not_or.mp h
      have hmutable := ensureMutable_of_unfrozen hfrozen "add advisor"
      have hplace : ¬ c.advisors.length < position.getD c.advisors.length := by
        cases position with
        | none => exact Nat.lt_irrefl _
        | some p => exact fun hout => hin ⟨p, rfl, hout⟩
      refine ⟨none, { c.exposeAll a.interfaces with
        advisors := c.advisors.take (position.getD c.advisors.length) ++
          a :: c.advisors.drop (position.getD c.advisors.length) }, ?_, ?_⟩
      · simp only [apply, Configuration.insertAdvisor, hmutable, gt_iff_lt]
        change Except.map _ (if _ then _ else _) = _
        rw [if_neg hplace]
        rfl
      · exact ⟨take_append_cons_drop a (Nat.not_lt.mp hplace), rfl,
          TypeInfo.foldl_pushNew a.interfaces c.interfaces, rfl, rfl, rfl, rfl, rfl⟩
  | removeAdvisor position =>
      obtain ⟨hfrozen, hin⟩ := not_or.mp h
      have hmutable := ensureMutable_of_unfrozen hfrozen "remove advisor"
      have hfound := List.getElem?_eq_getElem (Nat.not_le.mp hin)
      refine ⟨some c.advisors[position], { c with advisors := c.advisors.eraseIdx position },
        ?_, ?_⟩
      · simp only [apply, Configuration.removeAdvisor, hmutable, hfound]
        rfl
      · exact ⟨rfl, hfound.symm, (List.append_nil _).symm, rfl, rfl, rfl, rfl, rfl⟩
  | freeze =>
      refine ⟨none, c.freeze, rfl, ?_⟩
      cases hfrozen : c.frozen with
      | true =>
          have hsame : c.freeze = c := by simp [Configuration.freeze, hfrozen]
          rw [hsame]
          exact ⟨rfl, rfl, (List.append_nil _).symm, hfrozen, rfl, rfl, rfl, rfl⟩
      | false =>
          have hfreeze : c.freeze = { c with frozen := true, cache := .empty } := by
            simp [Configuration.freeze, hfrozen]
          rw [hfreeze]
          exact ⟨rfl, rfl, (List.append_nil _).symm, rfl, rfl, rfl, rfl, rfl⟩

end Change

end Configuration

open Weaving.Configuration (Change)

namespace Run

variable {w : World κ σ ν} {id : ConfigurationId} {c : Configuration κ}

theorem changeConfiguration_run {α : Type} (hc : w.configurations[id]? = some c)
    (change : Configuration κ → Except AopError (α × Configuration κ)) :
    (changeConfiguration id change : Run κ σ ν _).run w =
      match change c with
      | .error e => some (.error e, w)
      | .ok (a, c') => some (.ok a, w.mapConfiguration id fun _ => c') := by
  rw [changeConfiguration, get_bind_run]
  simp only [hc]
  rcases change c with e | ⟨a, c'⟩ <;> rfl

theorem mapConfiguration_at (hc : w.configurations[id]? = some c)
    (change : Configuration κ → Configuration κ) (other : ConfigurationId) :
    (w.mapConfiguration id change).configurations[other]? =
      if other = id then some (change c) else w.configurations[other]? := by
  change (w.configurations.modify id _)[other]? = _
  rw [Array.getElem?_modify]
  by_cases hother : id = other
  · subst hother
    rw [if_pos rfl, if_pos rfl, hc]
    rfl
  · rw [if_neg hother, if_neg fun h => hother h.symm]

/-- Asking for a change makes it, or leaves the world as it is. -/
theorem change_run (host : Host κ σ ν) (depth : Nat) (hc : w.configurations[id]? = some c)
    (change : Change κ) :
    ∃ reply w', (answer host (depth + 1) (change.request id)).run w = some (reply, w') ∧
      change.told reply = (change.apply c).map (·.1) ∧
      (∀ e, change.apply c = .error e → w' = w) ∧
      ∀ removed c', change.apply c = .ok (removed, c') → ∀ other,
        w'.configurations[other]? = if other = id then some c' else w.configurations[other]? := by
  cases change with
  | addInterface type =>
      have hrun := changeConfiguration_run hc
        (fun c : Configuration κ => (c.addInterface type).map (((), ·)))
      rcases hadded : c.addInterface type with e | c'
      · rw [hadded] at hrun
        refine ⟨_, _, hrun, ?_⟩
        simp [Change.told, Change.apply, hadded, Except.map]
      · rw [hadded] at hrun
        refine ⟨_, _, hrun, ?_⟩
        simp [Change.told, Change.apply, hadded, Except.map, mapConfiguration_at hc]
  | insertAdvisor position a =>
      have hrun := changeConfiguration_run hc
        (fun c : Configuration κ => (c.insertAdvisor position a).map Prod.swap)
      rcases hinserted : c.insertAdvisor position a with e | ⟨c', line⟩
      · rw [hinserted] at hrun
        refine ⟨.error e, w, ?_, ?_⟩
        · exact run_bind_of_eq_some hrun
        · simp [Change.told, Change.apply, hinserted, Except.map]
      · rw [hinserted] at hrun
        refine ⟨.ok (), (w.mapConfiguration id fun _ => c').record (.logged line), ?_, ?_⟩
        · exact run_bind_of_eq_some hrun
        · simp [Change.told, Change.apply, hinserted, Except.map, World.record,
            mapConfiguration_at hc]
  | removeAdvisor position =>
      have hrun := changeConfiguration_run hc
        (fun c : Configuration κ => c.removeAdvisor position)
      rcases hremoved : c.removeAdvisor position with e | ⟨a, c'⟩
      · rw [hremoved] at hrun
        refine ⟨_, _, hrun, ?_⟩
        simp [Change.told, Change.apply, hremoved, Except.map]
      · rw [hremoved] at hrun
        refine ⟨_, _, hrun, ?_⟩
        simp [Change.told, Change.apply, hremoved, Except.map, mapConfiguration_at hc]
  | freeze =>
      by_cases hfrozen : c.frozen = true
      · refine ⟨(), w, ?_, rfl, fun _ _ => rfl, ?_⟩
        · change (freeze id).run w = _
          rw [freeze, get_bind_run]
          simp only [hc, hfrozen]
          rfl
        · intro removed c' h other
          have hsame : c.freeze = c := by simp [Configuration.freeze, hfrozen]
          rw [Change.apply, hsame] at h
          cases h
          split
          · rename_i hother
            rw [hother, hc]
          · rfl
      · refine ⟨(), (w.mapConfiguration id Configuration.freeze).record (.logged c.freezingLine),
          ?_, rfl, ?_, ?_⟩
        · change (freeze id).run w = _
          rw [freeze, get_bind_run]
          simp only [hc, hfrozen]
          rfl
        · intro e h
          cases h
        · intro removed c' h other
          cases h
          exact mapConfiguration_at hc Configuration.freeze other

end Run

namespace Configuration

theorem distinct_configure (f : ProxyFactory κ) (flags : Flags) (source : SourceId)
    (targetType : Option TypeInfo) (advisors : List (Advisor κ)) (chainFactory : ChainFactory κ) :
    TypeInfo.Distinct
      (f.configure flags source targetType advisors chainFactory).interfaces := by
  have hadvised : TypeInfo.Distinct
      ((advisors.flatMap (·.interfaces)).foldl TypeInfo.pushNew
        (f.interfaces.foldl TypeInfo.pushNew [])) :=
    (TypeInfo.Distinct.foldl_pushNew f.interfaces List.Pairwise.nil).foldl_pushNew _
  cases targetType with
  | none => exact hadvised
  | some type =>
      simp only [ProxyFactory.configure]
      split
      · exact hadvised.foldl_pushNew _
      · exact hadvised

theorem Step.distinct {host : Host κ σ ν} {c c' : Configuration κ} (h : c.Step host c')
    (hc : TypeInfo.Distinct c.interfaces) : TypeInfo.Distinct c'.interfaces := by
  cases h with
  | exposed done =>
      obtain ⟨_, rfl⟩ := addInterface_eq_ok done
      exact hc.pushNew _
  | inserted done =>
      obtain ⟨_, rfl⟩ := insertAdvisor_eq_ok done
      exact hc.foldl_pushNew _
  | removed done =>
      obtain ⟨_, _, rfl⟩ := removeAdvisor_eq_ok done
      exact hc
  | froze =>
      rw [freeze]
      split <;> exact hc
  | remembered _ _ => exact hc

end Configuration

namespace World

variable {host : Host κ σ ν} {allowed : Act → Prop}

/-- No configuration exposes a type twice. -/
def ExposesOnce (w : World κ σ ν) : Prop :=
  ∀ (id : ConfigurationId) (c : Configuration κ), w.configurations[id]? = some c →
    TypeInfo.Distinct c.interfaces

theorem ExposesOnce.step {w w' : World κ σ ν} (hw : w.ExposesOnce)
    (h : w.Step host allowed w') : w'.ExposesOnce := by
  intro id c hc
  cases h with
  | @madeConfiguration f flags source _ advisors chainFactory _ =>
      change (w.configurations.push _)[id]? = some c at hc
      rw [Array.getElem?_push] at hc
      split at hc
      · cases hc
        exact Configuration.distinct_configure f flags source _ advisors chainFactory
      · exact hw id c hc
  | @configured changed old change found step =>
      change (w.configurations.modify changed change)[id]? = some c at hc
      rw [Array.getElem?_modify] at hc
      split at hc
      · rename_i hid
        subst hid
        rw [found] at hc
        cases hc
        exact step.distinct (hw changed old found)
      · exact hw id c hc
  | _ => exact hw id c hc

theorem Reachable.exposesOnce {w : World κ σ ν} (h : Reachable host w) : w.ExposesOnce := by
  induction h with
  | initial memory => exact fun id c hc => nomatch hc
  | step _ change ih => exact ih.step change

end World

namespace Run

/-- A configuration changes as a whole or not at all.  Every change that is asked for has an answer:
exactly those that the configuration does not allow are refused, with a configuration error, and
leave the world as it was; the others insert or remove just the advisor in question, append just the
contracts that are new, and touch no other configuration.  The contracts are different at all times,
and once frozen a configuration is frozen for good, with the advisors and the contracts it has. -/
theorem configuration_changes_atomic (host : Host κ σ ν) (depth : Nat) (w : World κ σ ν)
    (hw : World.Reachable host w) (id : ConfigurationId) (c : Configuration κ)
    (hc : w.configurations[id]? = some c) :
    (∀ change : Change κ, ∃ reply w',
      (answer host (depth + 1) (change.request id)).run w = some (reply, w') ∧
        ((∃ e, change.told reply = .error e) ↔ change.Refused c) ∧
        (∀ e, change.told reply = .error e → (∃ detail, e = .configuration detail) ∧ w' = w) ∧
        ∀ removed, change.told reply = .ok removed →
          (∃ c', w'.configurations[id]? = some c' ∧ change.Made c removed c') ∧
            ∀ other, other ≠ id → w'.configurations[other]? = w.configurations[other]?) ∧
    TypeInfo.Distinct c.interfaces ∧
    (c.frozen = true → ∀ w', w.Leads host (fun _ => True) w' →
      ∃ c', w'.configurations[id]? = some c' ∧ c'.frozen = true ∧
        c'.advisors = c.advisors ∧ c'.interfaces = c.interfaces) := by
  refine ⟨fun change => ?_, hw.exposesOnce id c hc, fun hfrozen w' hleads => ?_⟩
  · obtain ⟨reply, w', hrun, htold, herror, hdone⟩ := change_run host depth hc change
    refine ⟨reply, w', hrun, ?_⟩
    by_cases hrefused : change.Refused c
    · obtain ⟨detail, happly⟩ := Change.apply_refused hrefused
      have hsaid : change.told reply = .error (.configuration detail) := by
        rw [htold, happly]
        rfl
      rw [hsaid]
      refine ⟨⟨fun _ => hrefused, fun _ => ⟨_, rfl⟩⟩, fun e he => ?_, fun removed h => nomatch h⟩
      cases he
      exact ⟨⟨detail, rfl⟩, herror _ happly⟩
    · obtain ⟨removed, c', happly, hmade⟩ := Change.apply_made hrefused
      have hsaid : change.told reply = .ok removed := by
        rw [htold, happly]
        rfl
      have hworld := hdone removed c' happly
      rw [hsaid]
      refine ⟨⟨?_, fun h => absurd h hrefused⟩, ?_, ?_⟩
      · rintro ⟨e, he⟩
        cases he
      · intro e he
        cases he
      · intro taken htaken
        cases htaken
        refine ⟨⟨c', ?_, hmade⟩, fun other hne => ?_⟩
        · rw [hworld, if_pos rfl]
        · rw [hworld, if_neg hne]
  · obtain ⟨c', hc', hlater⟩ := hleads.later.configurations id c hc
    exact ⟨c', hc', hlater.frozen hfrozen, hlater.advisors hfrozen, hlater.interfaces hfrozen⟩

section Introducing

def introducedContract : TypeInfo := ⟨2, "Lockable", [], true, false, false⟩

def introduction : Advisor Unit :=
  .introduction (fun _ => true) [introducedContract]
    ⟨"lock", .around ⟨none, .logging false⟩⟩

/-- Makes a proxy with one advisor, whose contract it exposes. -/
def introducedSetup : Code Unit Unit Unit Unit := do
  let source ← Code.ask (.newSource (.empty none))
  let _ ← Code.ask (.makeProxy { source := some source, advisors := [introduction] })

def introducedWorld : World Unit Unit Unit :=
  worldAfter Host.idle 1 introducedSetup (.initial ())

/-- An introduction with a position too high by one is refused, with one just in reach it is made;
its contract is exposed already and not exposed again. -/
theorem configuration_changes_atomic_introducing :
    ∃ c, introducedWorld.configurations[0]? = some c ∧
      TypeInfo.Distinct c.interfaces ∧
      (∃ reply, (answer Host.idle 1 (.insertAdvisor 0 (some 2) introduction)).run
        introducedWorld = some (.error reply, introducedWorld)) ∧
      ∃ w' c', (answer Host.idle 1 (.insertAdvisor 0 (some 1) introduction)).run
          introducedWorld = some (.ok (), w') ∧
        w'.configurations[0]? = some c' ∧ c'.advisors.length = 2 ∧
        c'.interfaces.length = 1 := by
  have hfound : (introducedWorld.configurations[0]?).isSome = true := by decide +kernel
  obtain ⟨c, hc⟩ := Option.isSome_iff_exists.mp hfound
  have hsizes : (introducedWorld.configurations[0]?).map
      (fun c => (c.frozen, c.advisors.length, c.interfaces.length,
        introducedContract.isIn c.interfaces)) = some (false, 1, 1, true) := by decide +kernel
  simp only [hc, Option.map_some, Option.some.injEq, Prod.mk.injEq] at hsizes
  obtain ⟨hunfrozen, hadvisors, hinterfaces, hin⟩ := hsizes
  have hreachable : World.Reachable Host.idle introducedWorld :=
    worldAfter_reachable (.initial ()) 1 introducedSetup
  obtain ⟨hchanges, hdistinct, _⟩ :=
    configuration_changes_atomic Host.idle 0 introducedWorld hreachable 0 c hc
  refine ⟨c, hc, hdistinct, ?_, ?_⟩
  · obtain ⟨reply, w', hrun, hrefused, hsame, _⟩ := hchanges (.insertAdvisor (some 2) introduction)
    obtain ⟨e, he⟩ := hrefused.mpr (.inr ⟨2, rfl, by omega⟩)
    obtain ⟨_, rfl⟩ := hsame e he
    rcases reply with error | _
    · exact ⟨error, hrun⟩
    · cases he
  · obtain ⟨reply, w', hrun, hrefused, _, hmade⟩ := hchanges (.insertAdvisor (some 1) introduction)
    have hallowed : ¬ (Change.insertAdvisor (some 1) introduction).Refused c := by
      rintro (hfrozen | ⟨p, hp, hlt⟩)
      · simp [hunfrozen] at hfrozen
      · cases hp
        omega
    rcases reply with error | _
    · exact absurd (hrefused.mp ⟨error, rfl⟩) hallowed
    · obtain ⟨⟨c', hc', hmade⟩, _⟩ := hmade none rfl
      refine ⟨w', c', hrun, hc', ?_, ?_⟩
      · rw [hmade.advisors]
        simp [Change.advisorsAfter, List.length_insertIdx, hadvisors]
      · rw [hmade.interfaces, List.length_append, hinterfaces]
        simp [Change.given, introduction, Advisor.interfaces, hin]

end Introducing

end Run

end Weaving
