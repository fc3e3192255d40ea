import Weaving.Matching.Pointcut
import Weaving.Pattern.Regex
import Weaving.Proofs.Hierarchy

/-
Expressions asked in stages.  A pointcut asks its expression first about the target type, then about
the method, and only then, if it has to, about the arguments.  An answer that is settled at one stage
is settled in the same way at all later ones, negations included, so the stages together select
exactly the calls that the expression selects when it is asked once with everything known.
-/
namespace Weaving

namespace Verdict

/-- Whatever an answer settles, another one settles in the same way. -/
def KeptBy (v w : Verdict) : Prop := ∀ b, v = some b → w = some b

namespace KeptBy

variable {v v' w w' : Verdict}

theorem refl (v : Verdict) : v.KeptBy v := fun _ h => h

theorem of_open (w : Verdict) : KeptBy none w := fun _ h => nomatch h

theorem both (hv : v.KeptBy v') (hw : w.KeptBy w') : (v.both w).KeptBy (v'.both w') := by
  intro b hb
  rcases v with _ | _ | _
  · rcases w with _ | _ | _
    · cases hb
    · cases hb
      rw [hw false rfl]
      rcases v' with _ | _ | _ <;> rfl
    · cases hb
  · cases hb
    rw [hv false rfl]
    rfl
  · rw [hv true rfl]
    rcases w with _ | _ | _
    · cases hb
    · rw [hw false rfl]
      exact hb
    · rw [hw true rfl]
      exact hb

theorem opposite (hv : v.KeptBy v') : v.opposite.KeptBy v'.opposite := by
  intro b hb
  obtain ⟨a, ha, rfl⟩ := Option.map_eq_some_iff.mp hb
  rw [hv a ha]
  rfl

end KeptBy

/-- One or the other is what is left when not both are ruled out. -/
theorem either_eq (v w : Verdict) : v.either w = (v.opposite.both w.opposite).opposite := by
  rcases v with _ | _ | _ <;> rcases w with _ | _ | _ <;> rfl

theorem KeptBy.either {v v' w w' : Verdict} (hv : v.KeptBy v') (hw : w.KeptBy w') :
    (v.either w).KeptBy (v'.either w') := by
  rw [either_eq, either_eq]
  exact (hv.opposite.both hw.opposite).opposite

end Verdict

namespace Expression

open Verdict

variable {m : MethodSignature} {target : TypeInfo} {args : List Value}

/-- A method that is declared in the target's hierarchy adds no name to look at. -/
theorem ownerNamed_eq (hdeclared : ∃ t, target.Reaches t ∧ t.name = m.declaringType.name)
    (test : String → Bool) : ownerNamed test m target = hierarchyNamed test target := by
  obtain ⟨t, hreaches, hname⟩ := hdeclared
  rw [ownerNamed]
  cases hown : test m.declaringType.name with
  | false => rfl
  | true =>
      have hfound : hierarchyNamed test target = true :=
        TypeInfo.anyAncestor_iff.mpr ⟨t, hreaches, hname ▸ hown⟩
      rw [hfound]
      rfl

/-- With the arguments known nothing is left open. -/
theorem exists_evaluate_eq_some (e : Expression) (m : MethodSignature) (target : TypeInfo)
    (args : List Value) : ∃ b, e.evaluate m target (some args) = some b := by
  induction e with
  | both l r ihl ihr =>
      obtain ⟨a, ha⟩ := ihl
      obtain ⟨b, hb⟩ := ihr
      rw [evaluate, ha, hb]
      cases a <;> cases b <;> exact ⟨_, rfl⟩
  | either l r ihl ihr =>
      obtain ⟨a, ha⟩ := ihl
      obtain ⟨b, hb⟩ := ihr
      rw [evaluate, ha, hb]
      cases a <;> cases b <;> exact ⟨_, rfl⟩
  | negation e ih =>
      obtain ⟨b, hb⟩ := ih
      rw [evaluate, hb]
      exact ⟨!b, rfl⟩
  | _ => exact ⟨_, rfl⟩

theorem matchesWithArgs_eq_iff {e : Expression} {b : Bool} :
    e.matchesWithArgs m target args = b ↔ e.evaluate m target (some args) = some b := by
  obtain ⟨a, ha⟩ := e.exists_evaluate_eq_some m target args
  rw [matchesWithArgs, ha, Option.some.injEq]
  rfl

/-- What the type alone settles is settled in the same way once the call is known. -/
theorem couldMatchType_keptBy
    (hdeclared : ∃ t, target.Reaches t ∧ t.name = m.declaringType.name) (e : Expression)
    (known : Option (List Value)) : (e.couldMatchType target).KeptBy (e.evaluate m target known) := by
  induction e with
  | typePattern pattern =>
      rw [couldMatchType, evaluate, ownerNamed_eq hdeclared]
      exact .refl _
  | typeRegex regex =>
      rw [couldMatchType, evaluate, ownerNamed_eq hdeclared]
      exact .refl _
  | execution owner method =>
      rw [couldMatchType, evaluate, ownerNamed_eq hdeclared]
      cases hierarchyNamed owner.accepts target with
      | false => exact .refl _
      | true => exact .of_open _
  | all => exact .refl _
  | within type => exact .refl _
  | both l r ihl ihr => exact ihl.both ihr
  | either l r ihl ihr => exact ihl.either ihr
  | negation e ih => exact ih.opposite
  | _ => exact .of_open _

/-- What is settled without the arguments is settled in the same way with them. -/
theorem matchesStatic_keptBy (e : Expression) (m : MethodSignature) (target : TypeInfo)
    (args : List Value) : (e.matchesStatic m target).KeptBy (e.evaluate m target (some args)) := by
  induction e with
  | args test => exact .of_open _
  | both l r ihl ihr => exact ihl.both ihr
  | either l r ihl ihr => exact ihl.either ihr
  | negation e ih => exact ih.opposite
  | _ => exact .refl _

/-- An expression without tests on arguments does not look at them. -/
theorem evaluate_of_not_runtime {e : Expression} (h : e.isRuntime = false) (m : MethodSignature)
    (target : TypeInfo) (args : List Value) :
    e.evaluate m target (some args) = e.matchesStatic m target := by
  induction e with
  | args test => cases h
  | both l r ihl ihr =>
      obtain ⟨hl, hr⟩ := Bool.or_eq_false_iff.mp h
      rw [matchesStatic, evaluate, evaluate, ihl hl, ihr hr]
      rfl
  | either l r ihl ihr =>
      obtain ⟨hl, hr⟩ := Bool.or_eq_false_iff.mp h
      rw [matchesStatic, evaluate, evaluate, ihl hl, ihr hr]
      rfl
  | negation e ih =>
      rw [matchesStatic, evaluate, evaluate, ih h]
      rfl
  | _ => rfl

end Expression

namespace Pointcut

open Expression

/-- An expression selects a call exactly if its pointcut lets the call through at every stage: the
filter on the target type, the test on the method, and, where that is not enough, the test on the
arguments.  What is settled at an early stage is settled for good, and where no arguments are needed
the method settles everything. -/
theorem ofExpression_selects_in_stages (e : Expression) (target : TypeInfo) (m : MethodSignature)
    (args : List Value) (hdeclared : ∃ t, target.Reaches t ∧ t.name = m.declaringType.name) :
    (e.matchesWithArgs m target args = true ↔
      (ofExpression e).filter target = true ∧ (ofExpression e).matcher.admits m target = true ∧
        ((ofExpression e).matcher.isRuntime = true →
          (ofExpression e).matcher.admitsCall m target args = true)) ∧
    (∀ b, e.couldMatchType target = some b → e.matchesWithArgs m target args = b) ∧
    (∀ b, e.matchesStatic m target = some b → e.matchesWithArgs m target args = b) ∧
    (e.isRuntime = false →
      e.matchesStatic m target = some (e.matchesWithArgs m target args)) := by
  have htype : ∀ b, e.couldMatchType target = some b → e.matchesWithArgs m target args = b :=
    fun b hb => matchesWithArgs_eq_iff.mpr (couldMatchType_keptBy hdeclared e (some args) b hb)
  have hstatic : ∀ b, e.matchesStatic m target = some b → e.matchesWithArgs m target args = b :=
    fun b hb => matchesWithArgs_eq_iff.mpr (matchesStatic_keptBy e m target args b hb)
  have hsettled : e.isRuntime = false →
      e.matchesStatic m target = some (e.matchesWithArgs m target args) := by
    intro hruntime
    rw [← evaluate_of_not_runtime hruntime m target args]
    exact matchesWithArgs_eq_iff.mp rfl
  refine ⟨⟨fun hselected => ⟨?_, ?_, fun _ => hselected⟩, ?_⟩, htype, hstatic, hsettled⟩
  · refine bne_iff_ne.mpr fun hruled => ?_
    cases (htype false hruled).symm.trans hselected
  · refine bne_iff_ne.mpr fun hruled => ?_
    cases (hstatic false hruled).symm.trans hselected
  · rintro ⟨_, hadmits, hcall⟩
    cases hruntime : e.isRuntime with
    | true => exact hcall hruntime
    | false =>
        have hne : e.matchesStatic m target ≠ some false := bne_iff_ne.mp hadmits
        rw [hsettled hruntime] at hne
        simpa using hne

section Greeting

def greetingContract : TypeInfo := ⟨2, "Greeter", [], true, false, false⟩

def greetingType : TypeInfo := ⟨3, "PoliteGreeter", [greetingContract], false, false, false⟩

def greetingMethod : MethodSignature := { declaringType := greetingContract, name := "greet" }

/-- Calls on a greeter with arguments, but not those of its other methods. -/
def greetingExpression : Expression :=
  .both (.negation (.either (.args List.isEmpty) (.typePattern (.ofText .simple "Timer"))))
    (.execution (.ofText .simple "Greeter") (.ofText .simple "greet"))

/-- The type leaves such a call open, and so does the method; the arguments decide. -/
theorem ofExpression_selects_in_stages_greeting :
    (∃ t, greetingType.Reaches t ∧ t.name = greetingMethod.declaringType.name) ∧
      greetingExpression.couldMatchType greetingType = none ∧
      greetingExpression.matchesStatic greetingMethod greetingType = none ∧
      greetingExpression.matchesWithArgs greetingMethod greetingType [.text "Ada"] = true ∧
      (ofExpression greetingExpression).matcher.admitsCall greetingMethod greetingType
        [.text "Ada"] = true := by
  have hdeclared : ∃ t, greetingType.Reaches t ∧ t.name = greetingMethod.declaringType.name :=
    ⟨greetingContract, .up List.mem_cons_self (.refl _), rfl⟩
  have hselected : greetingExpression.matchesWithArgs greetingMethod greetingType
      [.text "Ada"] = true := by decide
  obtain ⟨_, _, hcall⟩ := (ofExpression_selects_in_stages greetingExpression greetingType
    greetingMethod [.text "Ada"] hdeclared).1.mp hselected
  exact ⟨hdeclared, by decide, by decide, hselected, hcall rfl⟩

end Greeting

end Pointcut

end Weaving
