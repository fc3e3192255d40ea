import Weaving.Proofs.Contributions
import Weaving.Proofs.Moments

/-
Advice that acts at one point of a call.  Each piece of it is turned into one interceptor, and the
chain of these runs as a recursion over the list: what a level comes to depends on the point at
which its advice acts, on what the advice itself comes to, and on the translated result of the rest.
-/
namespace Weaving

variable {κ σ ν : Type}

/-- A point of a call at which advice acts that is adapted. -/
inductive Point where
  /-- Before the rest of the chain. -/
  | before
  /-- After the rest returned a value. -/
  | afterReturning
  /-- After the rest failed. -/
  | afterThrowing
  /-- After the rest in any case. -/
  | after

/-- Advice that runs code at one point of a call. -/
structure PointAdvice (κ : Type) where
  /-- The name. -/
  name : String
  /-- The point. -/
  point : Point
  /-- The code. -/
  code : κ

namespace PointAdvice

/-- The advice as it is put into an advisor. -/
def advice (a : PointAdvice κ) : Advice κ where
  name := a.name
  kind :=
    match a.point with
    | .before => .before a.code
    | .afterReturning => .afterReturning a.code
    | .afterThrowing => .afterThrowing a.code
    | .after => .after a.code

/-- What its interceptor does. -/
def action (a : PointAdvice κ) : Action κ :=
  match a.point with
  | .before => .before a.code
  | .afterReturning => .afterReturning a.code
  | .afterThrowing => .afterThrowing a.code
  | .after => .after a.code

/-- The chain of the adapted interceptors. -/
def chain (advice : List (PointAdvice κ)) : Chain κ :=
  advice.map fun a => .settled ⟨none, a.action⟩

/-- The built-in adapters make one interceptor of it. -/
theorem interceptors_advice (a : PointAdvice κ) :
    AdapterRegistry.standard.interceptors a.advice = .ok [⟨none, a.action⟩] := by
  obtain ⟨name, point, code⟩ := a
  cases point with
  | before => rfl
  | afterReturning => rfl
  | afterThrowing => rfl
  | after => rfl

theorem assemble_advice (advice : List (PointAdvice κ)) :
    Chain.assemble .standard (advice.map fun a => .unconditional a.advice) =
      .ok (chain advice) := by
  induction advice with
  | nil => rfl
  | cons a rest ih =>
      have hentries : (Advisor.unconditional a.advice).entries .standard =
          .ok [.settled ⟨none, a.action⟩] := by
        rw [Advisor.entries, Advisor.advice, interceptors_advice]
        rfl
      rw [List.map_cons, Chain.assemble_cons, hentries, ih]
      rfl

end PointAdvice

namespace AtCall

section Composition

variable (host : Host κ σ ν) (below : Handler κ σ ν)

/-- What advice at a point of a call makes of what the rest of the chain comes to. -/
inductive Advises (rest : Moment κ σ ν → Result → Moment κ σ ν → Prop) (code : κ) :
    Point → Moment κ σ ν → Result → Moment κ σ ν → Prop where
  /-- Before advice that fails ends the call; nothing further in runs. -/
  | stopped {s s' : Moment κ σ ν} {e : AopError}
      (ran : Ends ((host.before code).run (answer below)) s (.error e) s') :
      Advises rest code .before s (.error e) s'
  | begun {s s₁ s' : Moment κ σ ν} {result : Result}
      (ran : Ends ((host.before code).run (answer below)) s (.ok ()) s₁)
      (inner : rest s₁ result s') :
      Advises rest code .before s result s'
  /-- Where the rest failed, after-returning advice does not run. -/
  | notReturned {s s' : Moment κ σ ν} {e : AopError} (inner : rest s (.error e) s') :
      Advises rest code .afterReturning s (.error e) s'
  /-- An error of after-returning advice replaces the value that it has seen. -/
  | valueRefused {s s₁ s' : Moment κ σ ν} {value : Option Value} {e : AopError}
      (inner : rest s (.ok value) s₁)
      (ran : Ends ((host.afterReturning code value).run (answer below)) s₁ (.error e) s') :
      Advises rest code .afterReturning s (.error e) s'
  | valueSeen {s s₁ s' : Moment κ σ ν} {value : Option Value} (inner : rest s (.ok value) s₁)
      (ran : Ends ((host.afterReturning code value).run (answer below)) s₁ (.ok ()) s') :
      Advises rest code .afterReturning s (.ok value) s'
  /-- Where the rest returned, after-throwing advice does not run. -/
  | notThrown {s s' : Moment κ σ ν} {value : Option Value} (inner : rest s (.ok value) s') :
      Advises rest code .afterThrowing s (.ok value) s'
  /-- An error of after-throwing advice replaces the one that it has seen. -/
  | errorReplaced {s s₁ s' : Moment κ σ ν} {e replacement : AopError}
      (inner : rest s (.error e) s₁)
      (ran : Ends ((host.afterThrowing code e).run (answer below)) s₁ (.error replacement) s') :
      Advises rest code .afterThrowing s (.error replacement) s'
  | errorSeen {s s₁ s' : Moment κ σ ν} {e : AopError} (inner : rest s (.error e) s₁)
      (ran : Ends ((host.afterThrowing code e).run (answer below)) s₁ (.ok ()) s') :
      Advises rest code .afterThrowing s (.error e) s'
  /-- An error of the rest wins over whatever after advice comes to. -/
  | afterError {s s₁ s' : Moment κ σ ν} {e : AopError} {ended : Except AopError Unit}
      (inner : rest s (.error e) s₁)
      (ran : Ends ((host.after code).run (answer below)) s₁ ended s') :
      Advises rest code .after s (.error e) s'
  /-- An error of after advice replaces a value. -/
  | valueSpoilt {s s₁ s' : Moment κ σ ν} {value : Option Value} {e : AopError}
      (inner : rest s (.ok value) s₁)
      (ran : Ends ((host.after code).run (answer below)) s₁ (.error e) s') :
      Advises rest code .after s (.error e) s'
  | afterValue {s s₁ s' : Moment κ σ ν} {value : Option Value} (inner : rest s (.ok value) s₁)
      (ran : Ends ((host.after code).run (answer below)) s₁ (.ok ()) s') :
      Advises rest code .after s (.ok value) s'

/-- What a list of advice comes to, the first piece of which stands at a position: the outermost
advice makes its result from what the others come to, and the target stands at the end. -/
def Composes : List (PointAdvice κ) → Nat → Moment κ σ ν → Result → Moment κ σ ν → Prop
  | [], index, s, result, s' => ∃ own s₁, TargetAnswers host below s own s₁ ∧
      result = translateUndeclared s.joinPoint.method own ∧ s' = s₁.leaving index own
  | a :: rest, index, s, result, s' => ∃ own s₁,
      Advises host below (Composes rest (index + 1)) a.code a.point (s.entering index) own s₁ ∧
        result = translateUndeclared s.joinPoint.method own ∧ s' = s₁.leaving index own

end Composition

variable {host : Host κ σ ν} {below : Handler κ σ ν} {s s' : Moment κ σ ν} {own result : Result}

/-- The interceptor of a piece of advice does what the advice does at its point. -/
theorem ends_intercept_iff {proceed : AtCall κ σ ν Result} {position : Nat} (a : PointAdvice κ) :
    Ends (intercept host below a.action position proceed) s own s' ↔
      Advises host below (Ends proceed) a.code a.point s own s' := by
  obtain ⟨name, point, code⟩ := a
  cases point with
  | before =>
      simp only [PointAdvice.action, intercept, ends_bind_except_iff, ends_pure_iff]
      constructor
      · rintro (⟨e, s₁, ran, rfl, rfl⟩ | ⟨_, s₁, ran, inner⟩)
        · exact .stopped ran
        · exact .begun ran inner
      · intro h
        cases h with
        | stopped ran => exact .inl ⟨_, _, ran, rfl, rfl⟩
        | begun ran inner => exact .inr ⟨_, _, ran, inner⟩
  | afterReturning =>
      simp only [PointAdvice.action, intercept, ends_bind_except_iff, ends_pure_iff]
      constructor
      · rintro (⟨e, s₁, inner, rfl, rfl⟩ |
          ⟨value, s₁, inner, ⟨e, s₂, ran, rfl, rfl⟩ | ⟨_, s₂, ran, rfl, rfl⟩⟩)
        · exact .notReturned inner
        · exact .valueRefused inner ran
        · exact .valueSeen inner ran
      · intro h
        cases h with
        | notReturned inner => exact .inl ⟨_, _, inner, rfl, rfl⟩
        | valueRefused inner ran => exact .inr ⟨_, _, inner, .inl ⟨_, _, ran, rfl, rfl⟩⟩
        | valueSeen inner ran => exact .inr ⟨_, _, inner, .inr ⟨_, _, ran, rfl, rfl⟩⟩
  | afterThrowing =>
      simp only [PointAdvice.action, intercept, ends_bind_except_iff, ends_pure_iff]
      constructor
      · rintro (⟨e, s₁, inner, ⟨replacement, s₂, ran, rfl, rfl⟩ | ⟨_, s₂, ran, rfl, rfl⟩⟩ |
          ⟨value, s₁, inner, rfl, rfl⟩)
        · exact .errorReplaced inner ran
        · exact .errorSeen inner ran
        · exact .notThrown inner
      · intro h
        cases h with
        | notThrown inner => exact .inr ⟨_, _, inner, rfl, rfl⟩
        | errorReplaced inner ran => exact .inl ⟨_, _, inner, .inl ⟨_, _, ran, rfl, rfl⟩⟩
        | errorSeen inner ran => exact .inl ⟨_, _, inner, .inr ⟨_, _, ran, rfl, rfl⟩⟩
  | after =>
      simp only [PointAdvice.action, intercept, ends_bind_except_iff, ends_pure_iff]
      constructor
      · rintro (⟨e, s₁, inner, ⟨_, s₂, ran, rfl, rfl⟩ | ⟨_, s₂, ran, rfl, rfl⟩⟩ |
          ⟨value, s₁, inner, ⟨e, s₂, ran, rfl, rfl⟩ | ⟨_, s₂, ran, rfl, rfl⟩⟩)
        · exact .afterError inner ran
        · exact .afterError inner ran
        · exact .valueSpoilt inner ran
        · exact .afterValue inner ran
      · intro h
        cases h with
        | @afterError _ _ _ _ ended inner ran =>
            refine .inl ⟨_, _, inner, ?_⟩
            rcases ended with e | _
            · exact .inl ⟨_, _, ran, rfl, rfl⟩
            · exact .inr ⟨_, _, ran, rfl, rfl⟩
        | valueSpoilt inner ran => exact .inr ⟨_, _, inner, .inl ⟨_, _, ran, rfl, rfl⟩⟩
        | afterValue inner ran => exact .inr ⟨_, _, inner, .inr ⟨_, _, ran, rfl, rfl⟩⟩

/-- The chain from a position on comes to what the advice from there on composes to. -/
theorem ends_chain_iff {advice : List (PointAdvice κ)} {index : Nat} :
    Ends (translated index (proceedFrom host below (PointAdvice.chain advice) index)) s result s' ↔
      Composes host below advice index s result s' := by
  induction advice generalizing index s result s' with
  | nil => exact ends_nil_iff
  | cons a rest ih =>
      have hrest : Ends (translated (index + 1)
          (proceedFrom host below (PointAdvice.chain rest) (index + 1))) =
            Composes host below rest (index + 1) := by
        funext s₁ r s₂
        exact propext ih
      rw [Composes, ← hrest, PointAdvice.chain, List.map_cons, ends_cons_iff rfl]
      refine exists_congr fun own => exists_congr fun s₁ => and_congr_left fun _ => ?_
      exact ends_intercept_iff a

/-- The chain that is built from a list of such advice, in whatever order its kinds come, runs every
call as the recursion over the list says, and ends just where the recursion has an end: each level
makes its own result from the translated result of the rest, running its advice once or not at all,
and has its own result translated in turn. -/
theorem adapted_advice_composes (host : Host κ σ ν) (below : Handler κ σ ν)
    (advice : List (PointAdvice κ)) :
    (∀ (preFiltered : Bool) (m : MethodSignature) (target : Option TypeInfo),
      ((Chain.build .standard (advice.map fun a => .unconditional a.advice) preFiltered m
        target).run []).1 = .ok (PointAdvice.chain advice)) ∧
    ∀ (jp : JoinPoint κ) (w : World κ σ ν) (result : Result) (s' : Moment κ σ ν),
      Ends (invoke host below) ⟨{ jp with chain := PointAdvice.chain advice }, w⟩ result s' ↔
        Composes host below advice 0 ⟨{ jp with chain := PointAdvice.chain advice }, w⟩ result
          s' := by
  constructor
  · intro preFiltered m target
    obtain ⟨_, hrun, _⟩ := Chain.build_yields .standard
      (advice.map fun a => .unconditional a.advice) preFiltered m target []
    rw [hrun, List.filter_eq_self.mpr]
    · exact PointAdvice.assemble_advice advice
    · intro a ha
      obtain ⟨_, _, rfl⟩ := List.mem_map.mp ha
      rfl
  · intro jp w result s'
    exact ends_get_bind_iff.trans ends_chain_iff

end AtCall

end Weaving
