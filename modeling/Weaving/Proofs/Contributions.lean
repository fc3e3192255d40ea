import Weaving.Proofs.Histories
import Weaving.Run.Chains

/-
What advisors contribute to chains.  An advisor contributes the interceptors of its advice, all of
them bound to its matcher if the calls have to be tested one by one, or it contributes nothing.  The
chain of a method is what the contributing advisors contribute, in their order; the first advice that
cannot be adapted decides instead.  Matchers that want to know about introductions are all told the
same, whatever stands before or after them in the list.
-/
namespace Weaving

/-- Whether a matcher admits a method, once it is told whether any introduction applies. -/
def MethodMatcher.admitsTold (matcher : MethodMatcher) (m : MethodSignature) (target : TypeInfo)
    (introductions : Bool) : Bool :=
  match matcher.introductionAware with
  | some test => test m target introductions
  | none => matcher.admits m target

namespace Advisor

variable {κ : Type}

/-- Whether an advisor contributes to the chain of a method on a target type. -/
def contributes (preFiltered introductions : Bool) (m : MethodSignature) (target : TypeInfo) :
    Advisor κ → Bool
  | .pointcut rule _ =>
    (preFiltered || rule.filter target) && rule.matcher.admitsTold m target introductions
  | .introduction filter _ _ => preFiltered || filter target
  | .unconditional _ => true

/-- The entry that an advisor makes of an interceptor. -/
def entry (i : Interceptor κ) : Advisor κ → ChainEntry κ
  | .pointcut rule _ => if rule.matcher.isRuntime then .dynamic i rule.matcher else .settled i
  | _ => .settled i

/-- The entries of all interceptors of an advisor's advice. -/
def entries (registry : AdapterRegistry κ) (a : Advisor κ) : Except AopError (Chain κ) :=
  (registry.interceptors a.advice).map (·.map a.entry)

theorem introduces_iff {advisors : List (Advisor κ)} {target : TypeInfo} :
    advisors.any (·.introducesTo target) = true ↔ ∃ filter interfaces advice,
      Advisor.introduction filter interfaces advice ∈ advisors ∧ filter target = true := by
  rw [List.any_eq_true]
  constructor
  · rintro ⟨a, hmem, hintroduces⟩
    cases a with
    | introduction filter interfaces advice => exact ⟨filter, interfaces, advice, hmem, hintroduces⟩
    | pointcut rule advice => cases hintroduces
    | unconditional advice => cases hintroduces
  · rintro ⟨filter, interfaces, advice, hmem, hfilter⟩
    exact ⟨_, hmem, hfilter⟩

end Advisor

/-- A computation comes to an answer, and puts only certain questions on the way. -/
def Asking.Yields {α : Type} (x : Asking α) (allowed : Question → Prop) (a : α) : Prop :=
  ∀ asked, ∃ questions, x.run asked = (a, asked ++ questions) ∧ ∀ q ∈ questions, allowed q

namespace Asking.Yields

variable {α β : Type} {allowed : Question → Prop} {x : Asking α} {a : α}

theorem pure (a : α) : Asking.Yields (Pure.pure a) allowed a :=
  fun asked => ⟨[], by rw [List.append_nil]; rfl, fun _ h => nomatch h⟩

theorem bind {f : α → Asking β} {b : β} (hx : Yields x allowed a) (hf : Yields (f a) allowed b) :
    Asking.Yields (x >>= f) allowed b := by
  intro asked
  obtain ⟨first, hfirst, hallowed⟩ := hx asked
  obtain ⟨later, hlater, hallowed'⟩ := hf (asked ++ first)
  refine ⟨first ++ later, ?_, fun q hq => ?_⟩
  · rw [StateT.run_bind, hfirst, ← List.append_assoc]
    exact hlater
  · exact (List.mem_append.mp hq).elim (hallowed q) (hallowed' q)

theorem mono {permitted : Question → Prop} (hx : Yields x allowed a)
    (h : ∀ q, allowed q → permitted q) : Yields x permitted a := by
  intro asked
  obtain ⟨questions, hrun, hallowed⟩ := hx asked
  exact ⟨questions, hrun, fun q hq => h q (hallowed q hq)⟩

end Asking.Yields

theorem MethodMatcher.ask_yields (matcher : MethodMatcher) (m : MethodSignature)
    (target : TypeInfo) (introductions : Bool) :
    (matcher.ask m target introductions).Yields (· = ⟨m.name, introductions⟩)
      (matcher.admitsTold m target introductions) := by
  rw [ask, admitsTold]
  cases matcher.introductionAware with
  | none => exact .pure _
  | some test => exact fun asked => ⟨[⟨m.name, introductions⟩], rfl, by simp⟩

namespace Chain

variable {κ : Type}

/-- The chain that a list of advisors makes when all of them contribute. -/
def assemble (registry : AdapterRegistry κ) (advisors : List (Advisor κ)) :
    Except AopError (Chain κ) :=
  (advisors.mapM (Advisor.entries registry)).map List.flatten

/-- What becomes of a list of contributing advisors. -/
inductive Assembled (registry : AdapterRegistry κ) :
    List (Advisor κ) → Except AopError (Chain κ) → Prop where
  /-- All advice is adapted: the blocks of the advisors follow each other. -/
  | adapted {advisors : List (Advisor κ)} (blocks : List (Chain κ))
      (each : advisors.map (Advisor.entries registry) = blocks.map .ok) :
      Assembled registry advisors (.ok blocks.flatten)
  /-- Some advice cannot be adapted: the error of the first is the outcome. -/
  | failed (before : List (Advisor κ)) {after : List (Advisor κ)} {a : Advisor κ} {e : AopError}
      (earlier : ∀ b ∈ before, ∃ interceptors, registry.interceptors b.advice = .ok interceptors)
      (fails : registry.interceptors a.advice = .error e) :
      Assembled registry (before ++ a :: after) (.error e)

theorem assemble_cons (registry : AdapterRegistry κ) (a : Advisor κ) (rest : List (Advisor κ)) :
    assemble registry (a :: rest) = (do
      let entries ← a.entries registry
      let later ← assemble registry rest
      return entries ++ later) := by
  simp only [assemble, List.mapM_cons]
  rcases a.entries registry with e | entries
  · rfl
  · rcases rest.mapM (Advisor.entries registry) with e | later
    · rfl
    · rfl

theorem assemble_assembled (registry : AdapterRegistry κ) (advisors : List (Advisor κ)) :
    Assembled registry advisors (assemble registry advisors) := by
  induction advisors with
  | nil => exact .adapted [] rfl
  | cons a rest ih =>
      rw [assemble_cons]
      cases hadapt : registry.interceptors a.advice with
      | error e =>
          rw [Advisor.entries, hadapt]
          exact .failed [] (fun _ h => nomatch h) hadapt
      | ok interceptors =>
          have hentries : a.entries registry = .ok (interceptors.map a.entry) := by
            rw [Advisor.entries, hadapt]
            rfl
          rw [hentries]
          generalize assemble registry rest = outcome at ih
          cases ih with
          | adapted blocks each =>
              refine .adapted (interceptors.map a.entry :: blocks) ?_
              rw [List.map_cons, List.map_cons, hentries, each]
          | failed before earlier fails =>
              refine .failed (a :: before) (fun c hc => ?_) fails
              rcases List.mem_cons.mp hc with rfl | hc
              · exact ⟨interceptors, hadapt⟩
              · exact earlier c hc

/-- All interceptors of an advisor are in the chain that it is assembled to. -/
theorem mem_of_assembled {registry : AdapterRegistry κ} {advisors : List (Advisor κ)}
    {chain : Chain κ} (h : Assembled registry advisors (.ok chain)) {a : Advisor κ}
    (hmem : a ∈ advisors) :
    ∃ interceptors, registry.interceptors a.advice = .ok interceptors ∧
      ∀ i ∈ interceptors, a.entry i ∈ chain := by
  cases h with
  | adapted blocks each =>
      have hentries : a.entries registry ∈ blocks.map .ok := each ▸ List.mem_map_of_mem hmem
      obtain ⟨block, hblock, hadapted⟩ := List.mem_map.mp hentries
      rw [Advisor.entries] at hadapted
      rcases hinterceptors : registry.interceptors a.advice with e | interceptors
      · rw [hinterceptors] at hadapted
        cases hadapted
      · rw [hinterceptors] at hadapted
        cases hadapted
        exact ⟨interceptors, rfl, fun i hi =>
          List.mem_flatten.mpr ⟨_, hblock, List.mem_map_of_mem hi⟩⟩

/-- What an advisor contributes, it contributes as a whole. -/
theorem block_yields (registry : AdapterRegistry κ) (preFiltered introductions : Bool)
    (m : MethodSignature) (target : TypeInfo) (a : Advisor κ) :
    (block registry preFiltered introductions m target a).Yields (· = ⟨m.name, introductions⟩)
      (if a.contributes preFiltered introductions m target then a.entries registry
        else .ok []) := by
  cases a with
  | unconditional advice => exact .pure _
  | introduction filter interfaces advice =>
      rw [block, Advisor.contributes]
      split
      · exact .pure _
      · exact .pure _
  | pointcut rule advice =>
      rw [block, Advisor.contributes]
      cases preFiltered || rule.filter target with
      | false => exact .pure _
      | true =>
          rw [Bool.true_and]
          refine (rule.matcher.ask_yields m target introductions).bind ?_
          split
          · exact .pure _
          · exact .pure _

theorem blocks_yields (registry : AdapterRegistry κ) (preFiltered introductions : Bool)
    (m : MethodSignature) (target : TypeInfo) (advisors : List (Advisor κ)) :
    (blocks registry preFiltered introductions m target advisors).Yields
      (· = ⟨m.name, introductions⟩)
      (assemble registry (advisors.filter (·.contributes preFiltered introductions m target))) := by
  induction advisors with
  | nil => exact .pure _
  | cons a rest ih =>
      have hblock := block_yields registry preFiltered introductions m target a
      rw [blocks]
      cases hcontributes : a.contributes preFiltered introductions m target with
      | false =>
          rw [hcontributes] at hblock
          rw [List.filter_cons_of_neg (by simp [hcontributes])]
          refine hblock.bind (ih.bind ?_)
          rcases assemble registry (rest.filter _) with e | later
          · exact .pure _
          · exact .pure _
      | true =>
          rw [hcontributes, if_pos rfl] at hblock
          rw [List.filter_cons_of_pos hcontributes, assemble_cons]
          refine hblock.bind ?_
          cases a.entries registry with
          | error e => exact .pure _
          | ok entries =>
              refine ih.bind ?_
              rcases assemble registry (rest.filter _) with e | later
              · exact .pure _
              · exact .pure _

/-- The chain of a method is made by the advisors that contribute to it. -/
theorem build_yields (registry : AdapterRegistry κ) (advisors : List (Advisor κ))
    (preFiltered : Bool) (m : MethodSignature) (target : Option TypeInfo) :
    (build registry advisors preFiltered m target).Yields
      (· = ⟨m.name, advisors.any (·.introducesTo (effectiveType m target))⟩)
      (assemble registry (advisors.filter (·.contributes preFiltered
        (advisors.any (·.introducesTo (effectiveType m target))) m (effectiveType m target)))) :=
  blocks_yields _ _ _ _ _ _

end Chain

namespace World

variable {κ σ ν : Type}

/-- A world in which questions were put to matchers. -/
def asking (w : World κ σ ν) (questions : List Question) : World κ σ ν :=
  { w with trace := (questions.map .asked).reverse ++ w.trace }

/-- A world in which a chain was built, or could not be. -/
def building (w : World κ σ ν) (m : MethodSignature) (target : Option TypeInfo)
    (questions : List Question) : Except AopError (Chain κ) → World κ σ ν
  | .ok chain => (w.asking questions).record (.logged (Chain.builtLine m target chain))
  | .error _ => w.asking questions

end World

namespace Run

variable {κ σ ν : Type}

theorem recordQuestions_asking (questions : List Question) (w : World κ σ ν) :
    (recordQuestions questions : Run κ σ ν Unit).run w = some ((), w.asking questions) := by
  induction questions generalizing w with
  | nil => rfl
  | cons q rest ih =>
      refine (ih (w.record (.asked q))).trans ?_
      simp [World.asking, World.record]

/-- A computation that asks matchers leaves its questions behind and nothing else. -/
theorem asking_of_yields {α : Type} {x : Asking α} {allowed : Question → Prop} {a : α}
    (hx : x.Yields allowed a) (w : World κ σ ν) :
    ∃ questions, (∀ q ∈ questions, allowed q) ∧
      (asking x : Run κ σ ν α).run w = some (a, w.asking questions) := by
  obtain ⟨questions, hrun, hallowed⟩ := hx []
  refine ⟨questions, hallowed, ?_⟩
  rw [asking, hrun]
  exact run_bind_of_eq_some (recordQuestions_asking questions w)

/-- Building a chain from advisors comes out as they prescribe, whatever the world. -/
theorem buildFrom_run (registry : AdapterRegistry κ) (advisors : List (Advisor κ))
    (preFiltered : Bool) (m : MethodSignature) (target : Option TypeInfo) {introductions : Bool}
    (hflag : advisors.any (·.introducesTo (Chain.effectiveType m target)) = introductions)
    {outcome : Except AopError (Chain κ)}
    (houtcome : Chain.assemble registry (advisors.filter
      (·.contributes preFiltered introductions m (Chain.effectiveType m target))) = outcome)
    (w : World κ σ ν) :
    ∃ questions, (∀ q ∈ questions, q = ⟨m.name, introductions⟩) ∧
      (buildFrom registry advisors preFiltered m target).run w =
        some (outcome, w.building m target questions outcome) := by
  subst hflag houtcome
  obtain ⟨questions, hasked, hrun⟩ :=
    asking_of_yields (Chain.build_yields registry advisors preFiltered m target) w
  refine ⟨questions, hasked, ?_⟩
  rw [buildFrom, run_bind_of_eq_some hrun]
  rcases Chain.assemble registry (advisors.filter _) with e | chain
  · rfl
  · rfl

/-- The chain of a method consists of one block for each advisor that contributes, in the order of
the advisors: all interceptors of its advice, bound to its matcher if calls have to be tested one by
one.  If the advice of some of them cannot be adapted, the error of the first one is the outcome.
Every matcher that wants to know is told that an introduction applies exactly if the filter of some
introduction of the list, wherever it stands, accepts the type. -/
theorem buildFrom_assembles_contributions (registry : AdapterRegistry κ)
    (advisors : List (Advisor κ)) (preFiltered : Bool) (m : MethodSignature)
    (target : Option TypeInfo) (w : World κ σ ν) :
    ∃ (introductions : Bool) (outcome : Except AopError (Chain κ)) (questions : List Question),
      (introductions = true ↔ ∃ filter interfaces advice,
        Advisor.introduction filter interfaces advice ∈ advisors ∧
          filter (target.getD m.declaringType) = true) ∧
      Chain.Assembled registry
        (advisors.filter
          (·.contributes preFiltered introductions m (target.getD m.declaringType))) outcome ∧
      (∀ q ∈ questions, q = ⟨m.name, introductions⟩) ∧
      (buildFrom registry advisors preFiltered m target).run w =
        some (outcome, w.building m target questions outcome) := by
  obtain ⟨questions, hasked, hrun⟩ := buildFrom_run registry advisors preFiltered m target rfl rfl w
  exact ⟨_, _, questions, Advisor.introduces_iff, Chain.assemble_assembled registry _, hasked, hrun⟩

end Run

end Weaving
