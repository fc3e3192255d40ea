import Weaving.Pattern.Regex
import Weaving.Proofs.Contributions
import Weaving.Proofs.StagedMatching

/-
Methods from outside the hierarchy of the target type.  A call on a proxy may be of a method that an
introduced contract or the root type declares.  Tests of type names look at the name of the
declaring type too when they are asked about a call, but not when they are asked about the target
type alone.  Where the declaring type is the only one to pass such a test, the type alone is judged
too early, and the judgement travels up the expression; a pointcut whose expression is misjudged so
contributes nothing to the chain of a method whose calls it selects.
-/
namespace Weaving

namespace Verdict

variable {v w : Verdict}

theorem both_eq_true_iff : v.both w = some true ↔ v = some true ∧ w = some true := by
  rcases v with _ | _ | _ <;> rcases w with _ | _ | _ <;> simp [both]

theorem both_eq_false_iff : v.both w = some false ↔ v = some false ∨ w = some false := by
  rcases v with _ | _ | _ <;> rcases w with _ | _ | _ <;> simp [both]

theorem either_eq_true_iff : v.either w = some true ↔ v = some true ∨ w = some true := by
  rcases v with _ | _ | _ <;> rcases w with _ | _ | _ <;> simp [either]

theorem either_eq_false_iff : v.either w = some false ↔ v = some false ∧ w = some false := by
  rcases v with _ | _ | _ <;> rcases w with _ | _ | _ <;> simp [either]

theorem opposite_eq_some_iff {b : Bool} : v.opposite = some b ↔ v = some !b := by
  rcases v with _ | _ | _ <;> cases b <;> simp [opposite]

end Verdict

namespace Expression

open Verdict

variable {m : MethodSignature} {target : TypeInfo} {args : List Value}

/-- The name of the declaring type passes a test, and no name in the hierarchy of the target does.
-/
def PassedByOwner (test : String → Bool) (m : MethodSignature) (target : TypeInfo) : Prop :=
  test m.declaringType.name = true ∧ hierarchyNamed test target = false

/-- The type alone settles an expression one way, and the call settles it the other way.  A test of
names is misjudged if only the declaring type passes it; a compound is misjudged if a part of it is,
and the other part does not stand in the way of either answer. -/
def Misjudged (m : MethodSignature) (target : TypeInfo) (args : List Value) :
    Bool → Expression → Prop
  | b, .typePattern pattern => b = false ∧ PassedByOwner pattern.accepts m target
  | b, .typeRegex regex => b = false ∧ PassedByOwner regex.accepts m target
  | b, .execution owner method =>
    b = false ∧ PassedByOwner owner.accepts m target ∧ method.accepts m.name = true
  | false, .both l r =>
    (Misjudged m target args false l ∧ r.evaluate m target (some args) = some true) ∨
      (l.evaluate m target (some args) = some true ∧ Misjudged m target args false r)
  | true, .both l r =>
    (Misjudged m target args true l ∧ r.couldMatchType target = some true) ∨
      (l.couldMatchType target = some true ∧ Misjudged m target args true r)
  | false, .either l r =>
    (Misjudged m target args false l ∧ r.couldMatchType target = some false) ∨
      (l.couldMatchType target = some false ∧ Misjudged m target args false r)
  | true, .either l r =>
    (Misjudged m target args true l ∧ r.evaluate m target (some args) = some false) ∨
      (l.evaluate m target (some args) = some false ∧ Misjudged m target args true r)
  | b, .negation e => Misjudged m target args (!b) e
  | _, _ => False

/-- The tests of type names in an expression, each with whether it speaks for a call to pass it. -/
def nameTests : Expression → List (Bool × (String → Bool))
  | .typePattern pattern => [(true, pattern.accepts)]
  | .typeRegex regex => [(true, regex.accepts)]
  | .execution owner _ => [(true, owner.accepts)]
  | .both l r => l.nameTests ++ r.nameTests
  | .either l r => l.nameTests ++ r.nameTests
  | .negation e => e.nameTests.map fun t => (!t.1, t.2)
  | _ => []

theorem ownerNamed_and_not_hierarchyNamed {test : String → Bool} :
    hierarchyNamed test target = false ∧ ownerNamed test m target = true ↔
      PassedByOwner test m target := by
  rw [PassedByOwner, ownerNamed, Bool.or_eq_true]
  constructor
  · rintro ⟨hnone, howner | hfound⟩
    · exact ⟨howner, hnone⟩
    · rw [hnone] at hfound
      cases hfound
  · rintro ⟨howner, hnone⟩
    exact ⟨hnone, .inl howner⟩

/-- Only methods from outside the hierarchy of the target can be told so from those within. -/
theorem PassedByOwner.foreign {test : String → Bool} (h : PassedByOwner test m target) :
    ¬ ∃ t, target.Reaches t ∧ t.name = m.declaringType.name := by
  rintro ⟨t, hreaches, hname⟩
  have hfound : hierarchyNamed test target = true :=
    TypeInfo.anyAncestor_iff.mpr ⟨t, hreaches, hname ▸ h.1⟩
  rw [h.2] at hfound
  cases hfound

/-- No type passes a test of names without the calls on it passing it too. -/
theorem ownerNamed_of_hierarchyNamed {test : String → Bool} (m : MethodSignature)
    (h : hierarchyNamed test target = true) : ownerNamed test m target = true := by
  rw [ownerNamed, h, Bool.or_true]

/-- A test of names is misjudged just where the declaring type alone passes it. -/
theorem nameTest_misjudged_iff {test : String → Bool} {b : Bool} :
    hierarchyNamed test target = b ∧ ownerNamed test m target = !b ↔
      b = false ∧ PassedByOwner test m target := by
  rw [← ownerNamed_and_not_hierarchyNamed]
  cases b with
  | false => simp
  | true =>
      simp only [Bool.not_true, reduceCtorEq, false_and, iff_false, not_and]
      intro hfound
      rw [ownerNamed_of_hierarchyNamed m hfound]
      exact Bool.noConfusion

theorem misjudged_iff (e : Expression) (b : Bool) :
    e.couldMatchType target = some b ∧ e.evaluate m target (some args) = some !b ↔
      e.Misjudged m target args b := by
  induction e generalizing b with
  | typePattern pattern =>
      simp only [couldMatchType, evaluate, Misjudged, Option.some.injEq]
      exact nameTest_misjudged_iff
  | typeRegex regex =>
      simp only [couldMatchType, evaluate, Misjudged, Option.some.injEq]
      exact nameTest_misjudged_iff
  | execution owner method =>
      have howner : hierarchyNamed owner.accepts target = true →
          ¬ PassedByOwner owner.accepts m target := by
        rintro hfound ⟨_, hnone⟩
        rw [hfound] at hnone
        cases hnone
      simp only [couldMatchType, evaluate, Misjudged, Option.some.injEq]
      cases hnamed : hierarchyNamed owner.accepts target with
      | true => simp [howner hnamed]
      | false =>
          rw [← ownerNamed_and_not_hierarchyNamed, hnamed]
          cases b with
          | false => simp [Bool.and_eq_true]
          | true => simp
  | both l r ihl ihr =>
      cases b with
      | false =>
          simp only [couldMatchType, evaluate, Misjudged, both_eq_false_iff, Bool.not_false,
            both_eq_true_iff, ← ihl, ← ihr]
          grind
      | true =>
          simp only [couldMatchType, evaluate, Misjudged, both_eq_false_iff, Bool.not_true,
            both_eq_true_iff, ← ihl, ← ihr]
          grind
  | either l r ihl ihr =>
      cases b with
      | false =>
          simp only [couldMatchType, evaluate, Misjudged, either_eq_false_iff, Bool.not_false,
            either_eq_true_iff, ← ihl, ← ihr]
          grind
      | true =>
          simp only [couldMatchType, evaluate, Misjudged, either_eq_false_iff, Bool.not_true,
            either_eq_true_iff, ← ihl, ← ihr]
          grind
  | negation e ih =>
      simp only [couldMatchType, evaluate, Misjudged, opposite_eq_some_iff]
      exact ih !b
  | within type =>
      simp only [couldMatchType, evaluate, Misjudged, Option.some.injEq, iff_false]
      cases b with
      | false => simp
      | true => simp
  | all => cases b <;> simp [couldMatchType, evaluate, Misjudged]
  | _ => simp [couldMatchType, Misjudged]

/-- Whatever is misjudged, it is for a test of names that the declaring type alone passes, at a
place where passing it speaks against the judgement. -/
theorem Misjudged.exists_nameTest {e : Expression} {b : Bool}
    (h : e.Misjudged m target args b) :
    ∃ test, (!b, test) ∈ e.nameTests ∧ PassedByOwner test m target := by
  induction e generalizing b with
  | typePattern pattern =>
      obtain ⟨rfl, hpassed⟩ := h
      exact ⟨_, List.mem_singleton_self _, hpassed⟩
  | typeRegex regex =>
      obtain ⟨rfl, hpassed⟩ := h
      exact ⟨_, List.mem_singleton_self _, hpassed⟩
  | execution owner method =>
      obtain ⟨rfl, hpassed, _⟩ := h
      exact ⟨_, List.mem_singleton_self _, hpassed⟩
  | both l r ihl ihr | either l r ihl ihr =>
      have hpart : l.Misjudged m target args b ∨ r.Misjudged m target args b := by
        cases b with
        | false => exact h.imp And.left And.right
        | true => exact h.imp And.left And.right
      rcases hpart with hl | hr
      · obtain ⟨test, hmem, hpassed⟩ := ihl hl
        exact ⟨test, List.mem_append_left _ hmem, hpassed⟩
      · obtain ⟨test, hmem, hpassed⟩ := ihr hr
        exact ⟨test, List.mem_append_right _ hmem, hpassed⟩
  | negation e ih =>
      obtain ⟨test, hmem, hpassed⟩ := ih h
      rw [Bool.not_not] at hmem
      exact ⟨test, List.mem_map.mpr ⟨_, hmem, rfl⟩, hpassed⟩
  | _ => exact h.elim

end Expression

theorem Chain.build_outcome {κ : Type} (registry : AdapterRegistry κ) (advisors : List (Advisor κ))
    (preFiltered : Bool) (m : MethodSignature) (target : TypeInfo) :
    ((Chain.build registry advisors preFiltered m (some target)).run []).1 =
      assemble registry (advisors.filter
        (·.contributes preFiltered (advisors.any (·.introducesTo target)) m target)) := by
  obtain ⟨_, hrun, _⟩ := build_yields registry advisors preFiltered m (some target) []
  exact congrArg Prod.fst hrun

/-- An advisor that does not contribute may as well not be there, unless it introduces something. -/
theorem Chain.build_without {κ : Type} {registry : AdapterRegistry κ} {a : Advisor κ}
    {before after : List (Advisor κ)} {preFiltered : Bool} {m : MethodSignature} {target : TypeInfo}
    (hintroduces : a.introducesTo target = false)
    (hnothing : ∀ introductions, a.contributes preFiltered introductions m target = false) :
    ((Chain.build registry (before ++ a :: after) preFiltered m (some target)).run []).1 =
      ((Chain.build registry (before ++ after) preFiltered m (some target)).run []).1 := by
  have hsame : (before ++ a :: after).any (·.introducesTo target) =
      (before ++ after).any (·.introducesTo target) := by
    simp [hintroduces]
  rw [build_outcome, build_outcome, hsame, List.filter_append,
    List.filter_cons_of_neg (by simp [hnothing]), ← List.filter_append]

namespace Pointcut

open Expression

variable {κ : Type} {e : Expression} {m : MethodSignature} {target : TypeInfo} {args : List Value}

/-- The filter on target types refuses the type of a selected call just where the expression is
misjudged by the type. -/
theorem filter_eq_false_iff (hselected : e.matchesWithArgs m target args = true) :
    (ofExpression e).filter target = false ↔ e.Misjudged m target args false := by
  rw [← misjudged_iff, ← matchesWithArgs_eq_iff]
  have hfilter : (ofExpression e).filter target = (e.couldMatchType target != some false) := rfl
  rw [hfilter, bne_eq_false_iff_eq]
  exact ⟨fun hruled => ⟨hruled, hselected⟩, And.left⟩

/-- Of what a pointcut asks its expression, only the filter on target types can lose a selected
call. -/
theorem contributes_ofExpression (hselected : e.matchesWithArgs m target args = true)
    (preFiltered introductions : Bool) (advice : Advice κ) :
    (Advisor.pointcut (ofExpression e) advice).contributes preFiltered introductions m target =
      (preFiltered || (ofExpression e).filter target) := by
  have hadmits : (ofExpression e).matcher.admitsTold m target introductions = true := by
    refine bne_iff_ne.mpr fun hruled => ?_
    have hsettled := matchesStatic_keptBy e m target args false hruled
    cases (matchesWithArgs_eq_iff.mpr hsettled).symm.trans hselected
  rw [Advisor.contributes, hadmits, Bool.and_true]

/-- An expression that selects a call may yet be ruled out by the type of the target alone: just
where it is misjudged, which takes a method from outside the hierarchy of the target and a test of
names, at a place where passing it speaks for the call, that the name of the declaring type passes
and no name in that hierarchy does.  Any such test is misjudged by itself.  Unless the filters on
types are taken for granted, an advisor whose expression is misjudged makes no difference to the
chain of the method; all others whose expressions select the call are in it. -/
theorem ofExpression_filter_misjudges (e : Expression) (target : TypeInfo) (m : MethodSignature)
    (args : List Value) (hselected : e.matchesWithArgs m target args = true) :
    ((ofExpression e).filter target = false ↔ e.Misjudged m target args false) ∧
    (e.Misjudged m target args false →
      (¬ ∃ t, target.Reaches t ∧ t.name = m.declaringType.name) ∧
        ∃ test, (true, test) ∈ e.nameTests ∧ PassedByOwner test m target) ∧
    (∀ pattern, PassedByOwner pattern.accepts m target →
      (typePattern pattern).matchesWithArgs m target args = true ∧
        (ofExpression (.typePattern pattern)).filter target = false) ∧
    ∀ (registry : AdapterRegistry κ) (preFiltered : Bool) (advice : Advice κ),
      (preFiltered = false → e.Misjudged m target args false →
        ∀ before after : List (Advisor κ),
          ((Chain.build registry (before ++ .pointcut (ofExpression e) advice :: after) preFiltered
              m (some target)).run []).1 =
            ((Chain.build registry (before ++ after) preFiltered m (some target)).run []).1) ∧
      ((preFiltered = true ∨ ¬ e.Misjudged m target args false) →
        ∀ (advisors : List (Advisor κ)) (chain : Chain κ),
          .pointcut (ofExpression e) advice ∈ advisors →
          ((Chain.build registry advisors preFiltered m (some target)).run []).1 = .ok chain →
          ∃ interceptors, registry.interceptors advice = .ok interceptors ∧
            ∀ i ∈ interceptors, (Advisor.pointcut (ofExpression e) advice).entry i ∈ chain) := by
  have hmisjudged := filter_eq_false_iff hselected
  refine ⟨hmisjudged, fun hlost => ?_, fun pattern hpassed => ?_,
    fun registry preFiltered advice => ⟨fun hasked hlost before after => ?_,
      fun hkept advisors chain hmem hbuilt => ?_⟩⟩
  · obtain ⟨test, hmem, hpassed⟩ := hlost.exists_nameTest
    exact ⟨hpassed.foreign, test, hmem, hpassed⟩
  · have hlost : (typePattern pattern).Misjudged m target args false := ⟨rfl, hpassed⟩
    obtain ⟨hruled, hcalled⟩ := (misjudged_iff _ false).mpr hlost
    have hmatches : (typePattern pattern).matchesWithArgs m target args = true :=
      matchesWithArgs_eq_iff.mpr hcalled
    exact ⟨hmatches, (filter_eq_false_iff hmatches).mpr hlost⟩
  · refine Chain.build_without rfl fun introductions => ?_
    rw [contributes_ofExpression hselected, hasked, hmisjudged.mpr hlost]
    rfl
  · have hcontributes : ∀ introductions, (Advisor.pointcut (ofExpression e) advice).contributes
        preFiltered introductions m target = true := by
      intro introductions
      rw [contributes_ofExpression hselected]
      rcases hkept with hgranted | hjudged
      · rw [hgranted, Bool.true_or]
      · rw [Bool.of_not_eq_false (mt hmisjudged.mp hjudged), Bool.or_true]
    rw [Chain.build_outcome] at hbuilt
    have hassembled := Chain.assemble_assembled registry (advisors.filter
      (·.contributes preFiltered (advisors.any (·.introducesTo target)) m target))
    rw [hbuilt] at hassembled
    exact Chain.mem_of_assembled hassembled (List.mem_filter.mpr ⟨hmem, hcontributes _⟩)

section Ledger

/-- A contract that no ledger extends. -/
def balancedContract : TypeInfo := ⟨2, "Balanced", [], true, false, false⟩

def ledgerType : TypeInfo := ⟨3, "Ledger", [], false, false, false⟩

def balanceMethod : MethodSignature := { declaringType := balancedContract, name := "balance" }

/-- Calls on something balanced, but not those that set it back. -/
def balanceExpression : Expression :=
  .both (.negation (.methodPattern (.ofText .simple "reset")))
    (.typePattern (.ofText .simple "Balanced*"))

/-- The type of a ledger rules out a call that the expression selects, so advice bound to such calls
is missing from the chain. -/
theorem ofExpression_filter_misjudges_balance :
    balanceExpression.matchesWithArgs balanceMethod ledgerType [] = true ∧
      balanceExpression.Misjudged balanceMethod ledgerType [] false ∧
      ((Chain.build .standard
          [.pointcut (ofExpression balanceExpression) (⟨"note", .before ()⟩ : Advice Unit)] false
          balanceMethod (some ledgerType)).run []).1 =
        ((Chain.build .standard ([] : List (Advisor Unit)) false balanceMethod
          (some ledgerType)).run []).1 := by
  have hselected : balanceExpression.matchesWithArgs balanceMethod ledgerType [] = true := by
    decide
  obtain ⟨hruled, _, _, hchains⟩ := @ofExpression_filter_misjudges Unit balanceExpression
    ledgerType balanceMethod [] hselected
  have hmisjudged := hruled.mp (by decide)
  obtain ⟨hlost, _⟩ := hchains .standard false ⟨"note", .before ()⟩
  exact ⟨hselected, hmisjudged, hlost rfl hmisjudged [] []⟩

end Ledger

end Pointcut

end Weaving
