import Weaving.Pattern.Regex
import Weaving.Proofs.Contributions

/-
Filtering advisors ahead of time.  An advisor is left out only if its type filter refuses the target
type or its matcher admits none of the methods it was asked about, so it would contribute nothing to
the chain of any of these methods.  Introductions that apply are never left out, hence matchers are
told the same before and after; and what is kept has passed its type filter already, which therefore
need not be asked again when chains are built.
-/
namespace Weaving

variable {κ : Type} {target : TypeInfo} {methods : List MethodSignature} {introductions : Bool}

/-- Asking about several methods finds out whether one of them is admitted. -/
theorem MethodMatcher.askAny_yields (matcher : MethodMatcher) (target : TypeInfo)
    (introductions : Bool) (methods : List MethodSignature) :
    (matcher.askAny target introductions methods).Yields (·.introductions = introductions)
      (methods.any (matcher.admitsTold · target introductions)) := by
  induction methods with
  | nil => exact .pure _
  | cons m rest ih =>
      have hask : (matcher.ask m target introductions).Yields (·.introductions = introductions)
          (matcher.admitsTold m target introductions) :=
        (matcher.ask_yields m target introductions).mono fun q hq => hq ▸ rfl
      rw [askAny, List.any_cons]
      refine hask.bind ?_
      cases matcher.admitsTold m target introductions with
      | true => exact .pure _
      | false => exact ih

namespace Advisor

/-- Whether an advisor can contribute to the chain of one of several methods; without methods nothing
is known about them. -/
def relevant (target : TypeInfo) (methods : List MethodSignature) (introductions : Bool) :
    Advisor κ → Bool
  | .introduction filter _ _ => filter target
  | .pointcut rule _ => rule.filter target && (rule.matcher.admitsAll || methods.isEmpty ||
      methods.any (rule.matcher.admitsTold · target introductions))
  | .unconditional _ => true

theorem canApply_yields (a : Advisor κ) :
    (a.canApply target methods introductions).Yields (·.introductions = introductions)
      (a.relevant target methods introductions) := by
  cases a with
  | unconditional advice => exact .pure _
  | introduction filter interfaces advice => exact .pure _
  | pointcut rule advice =>
      rw [canApply, relevant]
      cases rule.filter target with
      | false => exact .pure _
      | true =>
          cases rule.matcher.admitsAll || methods.isEmpty with
          | true => exact .pure _
          | false => exact rule.matcher.askAny_yields target introductions methods

theorem keepApplicable_yields (advisors : List (Advisor κ)) :
    (keepApplicable target methods introductions advisors).Yields
      (·.introductions = introductions)
      (advisors.filter (·.relevant target methods introductions)) := by
  induction advisors with
  | nil => exact .pure _
  | cons a rest ih =>
      rw [keepApplicable, List.filter_cons]
      exact a.canApply_yields.bind (ih.bind (.pure _))

/-- An introduction that applies is relevant whatever the methods. -/
theorem relevant_of_introducesTo {a : Advisor κ} (h : a.introducesTo target = true) :
    a.relevant target methods introductions = true := by
  cases a with
  | introduction filter interfaces advice => exact h
  | pointcut rule advice => cases h
  | unconditional advice => cases h

/-- Leaving irrelevant advisors out does not change whether any introduction applies. -/
theorem any_introducesTo_relevant (advisors : List (Advisor κ)) :
    (advisors.filter (·.relevant target methods introductions)).any (·.introducesTo target) =
      advisors.any (·.introducesTo target) := by
  rw [List.any_filter]
  congr 1
  funext a
  cases hintroduces : a.introducesTo target with
  | false => exact Bool.and_false _
  | true => rw [relevant_of_introducesTo hintroduces, Bool.and_true]

/-- To the chain of one of the methods, exactly the relevant advisors contribute that contribute when
their type filters are taken for granted. -/
theorem contributes_and_relevant {m : MethodSignature} (hm : m ∈ methods ∨ methods = [])
    (a : Advisor κ) :
    (a.contributes true introductions m target && a.relevant target methods introductions) =
      a.contributes false introductions m target := by
  cases a with
  | unconditional advice => rfl
  | introduction filter interfaces advice => rfl
  | pointcut rule advice =>
      rw [contributes, contributes, relevant, Bool.true_or, Bool.true_and, Bool.false_or]
      cases hadmits : rule.matcher.admitsTold m target introductions with
      | false => rw [Bool.false_and, Bool.and_false]
      | true =>
          have hsome : (rule.matcher.admitsAll || methods.isEmpty ||
              methods.any (rule.matcher.admitsTold · target introductions)) = true := by
            rcases hm with hm | hm
            · rw [List.any_eq_true.mpr ⟨m, hm, hadmits⟩, Bool.or_true]
            · rw [hm, List.isEmpty_nil, Bool.or_true, Bool.true_or]
          rw [hsome, Bool.true_and]

theorem filter_contributes_relevant {m : MethodSignature} (hm : m ∈ methods ∨ methods = [])
    (advisors : List (Advisor κ)) :
    (advisors.filter (·.relevant target methods introductions)).filter
        (·.contributes true introductions m target) =
      advisors.filter (·.contributes false introductions m target) := by
  rw [List.filter_filter]
  exact List.filter_congr fun a _ => contributes_and_relevant hm a

/-- What filtering keeps, and what it asks on the way. -/
theorem findApplicable_yields (advisors : List (Advisor κ)) (target : TypeInfo)
    (methods : List MethodSignature) :
    (findApplicable advisors target methods).Yields
      (·.introductions = advisors.any (·.introducesTo target))
      (advisors.filter
        (·.relevant target methods (advisors.any (·.introducesTo target)))) :=
  keepApplicable_yields advisors

/-- What was filtered once is not filtered any further. -/
theorem findApplicable_again_yields (advisors : List (Advisor κ)) (target : TypeInfo)
    (methods : List MethodSignature) {kept : List (Advisor κ)}
    (hkept : advisors.filter
      (·.relevant target methods (advisors.any (·.introducesTo target))) = kept) :
    (findApplicable kept target methods).Yields
      (·.introductions = advisors.any (·.introducesTo target)) kept := by
  have hsame : kept.any (·.introducesTo target) = advisors.any (·.introducesTo target) :=
    hkept ▸ any_introducesTo_relevant advisors
  have hagain := findApplicable_yields kept target methods
  rw [hsame] at hagain
  rwa [← hkept, List.filter_filter, List.filter_congr fun a _ => Bool.and_self _, hkept] at hagain

end Advisor

namespace Run

variable {σ ν : Type}

open Advisor

/-- Chains come out the same from filtered advisors whose type filters are taken for granted as from
all advisors, for every method they were filtered by, and for every method if there was none to
filter by.  Filtering keeps the order, and once done it changes nothing any more. -/
theorem findApplicable_preserves_chains (advisors : List (Advisor κ)) (target : TypeInfo)
    (methods : List MethodSignature) :
    ∃ kept : List (Advisor κ), kept.Sublist advisors ∧
      (∀ w : World κ σ ν, ∃ questions,
        (asking (findApplicable advisors target methods)).run w = some (kept, w.asking questions)) ∧
      (∀ w : World κ σ ν, ∃ questions,
        (asking (findApplicable kept target methods)).run w = some (kept, w.asking questions)) ∧
      ∀ (registry : AdapterRegistry κ) (m : MethodSignature), m ∈ methods ∨ methods = [] →
        ∃ outcome, ∀ w : World κ σ ν,
          (∃ questions, (buildFrom registry kept true m (some target)).run w =
            some (outcome, w.building m (some target) questions outcome)) ∧
          ∃ questions, (buildFrom registry advisors false m (some target)).run w =
            some (outcome, w.building m (some target) questions outcome) := by
  refine ⟨advisors.filter (·.relevant target methods (advisors.any (·.introducesTo target))),
    List.filter_sublist, fun w => ?_, fun w => ?_, fun registry m hm => ?_⟩
  · obtain ⟨questions, _, hrun⟩ := asking_of_yields (findApplicable_yields advisors target methods) w
    exact ⟨questions, hrun⟩
  · obtain ⟨questions, _, hrun⟩ :=
      asking_of_yields (findApplicable_again_yields advisors target methods rfl) w
    exact ⟨questions, hrun⟩
  · refine ⟨Chain.assemble registry (advisors.filter
      (·.contributes false (advisors.any (·.introducesTo target)) m target)), fun w => ⟨?_, ?_⟩⟩
    · obtain ⟨questions, _, hrun⟩ := buildFrom_run registry _ true m (some target)
        (any_introducesTo_relevant advisors)
        (congrArg (Chain.assemble registry) (filter_contributes_relevant hm advisors)) w
      exact ⟨questions, hrun⟩
    · obtain ⟨questions, _, hrun⟩ :=
        buildFrom_run registry advisors false m (some target) rfl rfl w
      exact ⟨questions, hrun⟩

section Vault

def vaultType : TypeInfo := ⟨5, "Vault", [], false, false, false⟩

def vaultMethod : MethodSignature := { declaringType := vaultType, name := "audit" }

def vaultAdvice (name : String) (identity : Nat) : Advice Unit :=
  ⟨name, .around ⟨some identity, .scripted ()⟩⟩

/-- Admits methods where an introduction applies, call by call. -/
def vaultTold : MethodMatcher where
  admits _ _ := false
  isRuntime := true
  introductionAware := some fun _ _ introductions => introductions

/-- Claims every method and admits one. -/
def vaultClaiming : MethodMatcher where
  admits m _ := m.name == "open"
  admitsAll := true

/-- The first one depends on the fourth; the second and the last are for others. -/
def vaultAdvisors : List (Advisor Unit) :=
  [.pointcut (.ofMatcher vaultTold) (vaultAdvice "told" 1),
    .pointcut (Pointcut.always.withFilter (.named (.ofText .simple "Till"))) (vaultAdvice "elsewhere" 2),
    .pointcut (.ofMatcher vaultClaiming) (vaultAdvice "claimed" 3),
    .introduction .all [] (vaultAdvice "introduced" 4),
    .pointcut (.named [.ofText .simple "close"]) (vaultAdvice "unasked" 5)]

/-- Three of five advisors are kept, and two of them make the chain. -/
theorem findApplicable_preserves_chains_vault :
    ∃ (kept : List (Advisor Unit)) (outcome : Except AopError (Chain Unit))
      (w' : World Unit Unit Unit),
      kept.length = 3 ∧
      (buildFrom .standard kept true vaultMethod (some vaultType)).run (.initial ()) =
        some (outcome, w') ∧
      outcome.toOption.map Chain.inspect = some "[Dynamic, Static]" := by
  obtain ⟨kept, _, hkept, _, hbuild⟩ :=
    findApplicable_preserves_chains (σ := Unit) (ν := Unit) vaultAdvisors vaultType [vaultMethod]
  obtain ⟨outcome, hruns⟩ := hbuild .standard vaultMethod (.inl List.mem_cons_self)
  obtain ⟨⟨_, hfiltered⟩, ⟨_, hplain⟩⟩ := hruns (.initial ())
  obtain ⟨_, hkept⟩ := hkept (.initial ())
  have hlength : ((asking (findApplicable vaultAdvisors vaultType [vaultMethod])).run
      (World.initial () : World Unit Unit Unit)).map (·.1.length) = some 3 := by decide
  have hinspect : ((buildFrom .standard vaultAdvisors false vaultMethod (some vaultType)).run
      (World.initial () : World Unit Unit Unit)).map (·.1.toOption.map Chain.inspect) =
        some (some "[Dynamic, Static]") := by decide
  rw [hkept] at hlength
  rw [hplain] at hinspect
  exact ⟨kept, outcome, _, Option.some.inj hlength, hfiltered, Option.some.inj hinspect⟩

end Vault

end Run

end Weaving
