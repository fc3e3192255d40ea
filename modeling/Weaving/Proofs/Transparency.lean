import Weaving.Access
import Weaving.Proofs.Borrowing
import Weaving.Proofs.Cursor
import Weaving.Proofs.Routes

/-
Checked failures that a method does not declare.  Every level of a call wraps such a failure once
and passes everything else on; what is wrapped is no such failure any more, so the levels above leave
it as it is.  A call on a proxy therefore never ends with one, unless the error comes from building
its chain, from taking its target or from giving it back: these errors are returned untouched.
-/
namespace Weaving

variable {κ σ ν : Type}

/-- A result that is no checked failure, or one that the method declares. -/
def Transparent (m : MethodSignature) (result : Result) : Prop :=
  ∀ f kind, result = .error (.raised f) → f.checkedKind = some kind →
    m.declaresFailure kind = true

/-- What is told of a result when it arrives above the levels of a call of a method. -/
structure Arrives (m : MethodSignature) (own result : Result) : Prop where
  transparent : Transparent m result
  wrapped : ∀ f kind, own = .error (.raised f) → f.checkedKind = some kind →
    m.declaresFailure kind = false → result = .error (.undeclared m.text f)
  unchanged : Transparent m own → result = own

theorem transparent_ok (m : MethodSignature) (value : Option Value) :
    Transparent m (.ok value) := by
  intro f kind h
  cases h

theorem transparent_of_not_raised (m : MethodSignature) {e : AopError}
    (h : ∀ f, e ≠ .raised f) : Transparent m (.error e) := by
  intro f kind hraised
  cases hraised
  exact absurd rfl (h f)

/-- A level leaves a result alone that holds nothing undeclared. -/
theorem Transparent.translateUndeclared_eq {m : MethodSignature} {own : Result}
    (h : Transparent m own) : translateUndeclared m own = own := by
  unfold translateUndeclared
  split
  · rename_i f
    split
    · rename_i kind hkind
      rw [if_pos (h f kind rfl hkind)]
    · rfl
  · rfl

theorem translateUndeclared_wraps {m : MethodSignature} {f : Failure} {kind : String}
    (hkind : f.checkedKind = some kind) (hundeclared : m.declaresFailure kind = false) :
    translateUndeclared m (.error (.raised f) : Result) = .error (.undeclared m.text f) := by
  simp [translateUndeclared, hkind, hundeclared]

theorem transparent_translateUndeclared (m : MethodSignature) (own : Result) :
    Transparent m (translateUndeclared m own) := by
  intro f kind hresult hkind
  by_cases hdeclared : m.declaresFailure kind = true
  · exact hdeclared
  · -- what is raised after the level was raised before it, and would have been wrapped
    have hown : own = .error (.raised f) := by
      unfold translateUndeclared at hresult
      split at hresult
      · split at hresult
        · split at hresult
          · exact hresult
          · cases hresult
        · exact hresult
      · exact hresult
    rw [hown, translateUndeclared_wraps hkind (by simpa using hdeclared)] at hresult
    cases hresult

/-- One level is enough to wrap what is to be wrapped. -/
theorem arrives_translateUndeclared (m : MethodSignature) (own : Result) :
    Arrives m own (translateUndeclared m own) where
  transparent := transparent_translateUndeclared m own
  wrapped f kind hown hkind hundeclared := by
    rw [hown]
    exact translateUndeclared_wraps hkind hundeclared
  unchanged h := h.translateUndeclared_eq

/-- What has arrived once stays as it is at every level above. -/
theorem Arrives.again {m : MethodSignature} {own result : Result} (h : Arrives m own result) :
    Arrives m own (translateUndeclared m result) := by
  rw [h.transparent.translateUndeclared_eq]
  exact h

namespace AtCall

variable {host : Host κ σ ν} {below : Handler κ σ ν} {chain : Chain κ}

/-- What a level of a call comes to by itself, before anything is wrapped: the answer of the first
interceptor that admits the call, or else of the target. -/
inductive Yields (host : Host κ σ ν) (below : Handler κ σ ν) (chain : Chain κ) (i : Nat)
    (jp : JoinPoint κ) (w : World κ σ ν) : Result → Prop where
  | intercepted {j : Nat} {entry : ChainEntry κ} {own : Result} {jp' : JoinPoint κ}
      {v w' : World κ σ ν} (takes : jp.Takes chain i j entry)
      (reached : w.Alike v)
      (answered : ((intercept host below entry.interceptor.action (j + 1)
        (proceedAt host below chain (j + 1))).run { jp with phase := .running j }).run
          (v.record (.act (.entered jp.call j (.running j)))) = some ((own, jp'), w')) :
      Yields host below chain i jp w own
  | reached {target : TargetId} {own : Result} {v w' : World κ σ ν}
      (takesNone : jp.TakesNone chain i) (found : jp.target = some target)
      (reached : w.Alike v)
      (answered : (Run.callTarget host below target jp.method jp.arguments).run
        (v.record (.act (.reached jp.call target jp.arguments (some .targetInvoked)))) =
          some (own, w')) :
      Yields host below chain i jp w own
  | missing (takesNone : jp.TakesNone chain i) (nothing : jp.target = none) :
      Yields host below chain i jp w (.error (.noTarget jp.method.text))

/-- How an answer that a level of a call comes to by itself makes its way up: through every level
whose interceptor answers what proceeding gave it. -/
inductive Carried (host : Host κ σ ν) (below : Handler κ σ ν) (chain : Chain κ) :
    Nat → JoinPoint κ → Result → Result → Prop where
  | own {i : Nat} {jp jp₁ jp₂ : JoinPoint κ} {own result : Result} {w w₁ w₂ : World κ σ ν}
      (answered : ((proceedFrom host below (chain.drop i) i).run jp).run w = some ((own, jp₁), w₁))
      (ends : ((proceedAt host below chain i).run jp).run w = some ((result, jp₂), w₂)) :
      Carried host below chain i jp own result
  | up {i j : Nat} {jp jp₀ jp₁ jp₂ : JoinPoint κ} {own given result : Result}
      {w w₁ w₂ : World κ σ ν} (lower : Carried host below chain j jp₀ own given)
      (after : i < j) (same : jp.Continues jp₀)
      (answered : ((proceedFrom host below (chain.drop i) i).run jp).run w =
        some ((given, jp₁), w₁))
      (ends : ((proceedAt host below chain i).run jp).run w = some ((result, jp₂), w₂)) :
      Carried host below chain i jp own result

/-- Proceeding gives what the level came to, translated. -/
theorem proceedAt_eq_some {i : Nat} {jp jp' : JoinPoint κ} {result : Result}
    {w w' : World κ σ ν}
    (h : ((proceedAt host below chain i).run jp).run w = some ((result, jp'), w')) :
    ∃ own v, ((proceedFrom host below (chain.drop i) i).run jp).run w = some ((own, jp'), v) ∧
      result = translateUndeclared jp.method own := by
  rw [proceedAt, translated_run] at h
  obtain ⟨⟨own, jp₁⟩, v, hv, hrest⟩ := Run.run_bind_eq_some.mp h
  obtain ⟨_, u, _, hend⟩ := Run.run_bind_eq_some.mp hrest
  cases hend
  exact ⟨own, v, hv, rfl⟩

theorem Carried.arrives {i : Nat} {jp : JoinPoint κ} {own result : Result}
    (h : Carried host below chain i jp own result) : Arrives jp.method own result := by
  induction h with
  | own answered ends =>
      obtain ⟨given, v, hgiven, rfl⟩ := proceedAt_eq_some ends
      cases answered.symm.trans hgiven
      exact arrives_translateUndeclared _ _
  | up lower after same answered ends ih =>
      obtain ⟨given, v, hgiven, rfl⟩ := proceedAt_eq_some ends
      cases answered.symm.trans hgiven
      rw [same.method] at ih
      exact ih.again

theorem enter_run (entry : ChainEntry κ) (j : Nat) (proceed : AtCall κ σ ν Result)
    (jp : JoinPoint κ) :
    (enter host below entry j proceed).run jp =
      (Run.record (.act (.entered jp.call j (.running j))) >>= fun _ =>
        (intercept host below entry.interceptor.action (j + 1) proceed).run
            { jp with phase := .running j } >>= fun p =>
          pure (p.1, { p.2 with phase := .ofResult p.1 })) := by
  simp [enter, enterPhase, act, settle]

theorem logAll_run (lines : List LogLine) (w : World κ σ ν) :
    ∃ v, (Run.logAll lines : Run κ σ ν Unit).run w = some ((), v) ∧ w.Alike v := by
  induction lines generalizing w with
  | nil => exact ⟨w, rfl, .refl w⟩
  | cons line rest ih =>
      obtain ⟨v, hv, halike⟩ := ih (w.record (.logged line))
      exact ⟨v, hv, (World.alike_record_line w line).trans halike⟩

/-- What follows after entries were skipped happens in a world that is no different. -/
theorem reject_eq_some {i count : Nat} {next : AtCall κ σ ν Result} {jp jp' : JoinPoint κ}
    {result : Result} {w w' : World κ σ ν}
    (h : ((reject i count >>= fun _ => next).run jp).run w = some ((result, jp'), w')) :
    ∃ v, w.Alike v ∧ (next.run jp).run v = some ((result, jp'), w') := by
  obtain ⟨lines, hlines⟩ := reject_run (σ := σ) (ν := ν) i count jp
  obtain ⟨v, hv, halike⟩ := logAll_run lines w
  rw [StateT.run_bind, hlines, bind_assoc, StateT.run_bind, hv] at h
  exact ⟨v, halike, h⟩

/-- A level comes to the answer of the first interceptor that admits the call, or of the target. -/
theorem proceedFrom_yields {i : Nat} {jp jp' : JoinPoint κ} {own : Result} {w w' : World κ σ ν}
    (h : ((proceedFrom host below (chain.drop i) i).run jp).run w = some ((own, jp'), w')) :
    Yields host below chain i jp w own := by
  rcases jp.takes_or_takesNone chain i with ⟨j, entry, htakes⟩ | hnone
  · rw [proceedFrom_takes htakes] at h
    obtain ⟨v, halike, h⟩ := reject_eq_some h
    rw [enter_run] at h
    obtain ⟨_, u, hrecord, h⟩ := Run.run_bind_eq_some.mp h
    obtain ⟨⟨answer, jp₁⟩, u', hanswer, hend⟩ := Run.run_bind_eq_some.mp h
    cases hrecord
    cases hend
    exact .intercepted htakes halike hanswer
  · rw [proceedFrom_takesNone hnone] at h
    obtain ⟨v, halike, h⟩ := reject_eq_some h
    rcases htarget : jp.target with _ | target
    · rw [reachTarget_run_none htarget] at h
      cases h
      exact .missing hnone htarget
    · rw [reachTarget_run htarget] at h
      obtain ⟨_, u, hrecord, h⟩ := Run.run_bind_eq_some.mp h
      obtain ⟨answer, u', hanswer, hend⟩ := Run.run_bind_eq_some.mp h
      cases hrecord
      cases hend
      exact .reached hnone htarget halike hanswer

theorem proceedAt_arrives {i : Nat} {jp jp' : JoinPoint κ} {result : Result} {w w' : World κ σ ν}
    (h : ((proceedAt host below chain i).run jp).run w = some ((result, jp'), w')) :
    ∃ own, Yields host below chain i jp w own ∧ Arrives jp.method own result := by
  obtain ⟨own, v, hown, rfl⟩ := proceedAt_eq_some h
  exact ⟨own, proceedFrom_yields hown, arrives_translateUndeclared jp.method own⟩

theorem invoke_eq_proceedAt (host : Host κ σ ν) (below : Handler κ σ ν) (jp : JoinPoint κ) :
    (invoke host below).run jp = (proceedAt host below jp.chain 0).run jp := by
  rw [invoke, get_bind_run, proceedAt, List.drop_zero]

end AtCall

namespace Run

variable (host : Host κ σ ν) (below : Handler κ σ ν)

/-- Something fails in a call on a proxy that is not the doing of interceptors or of the target:
building a chain, taking a target from the source, or giving it back after the call succeeded. -/
inductive Disturbed (p : ProxyId) (m : MethodSignature) (arguments : List Value)
    (w : World κ σ ν) : AopError → Prop where
  | unbuilt {id : ConfigurationId} {target : Option TypeInfo} {e : AopError} {u v : World κ σ ν}
      (routed : (route host below p m arguments).run w = some (.unbuilt e, v))
      (building : (chainFor host below id m target).run u = some (.error e, v)) :
      Disturbed p m arguments w e
  | unsettled {proxy : Proxy} {c : Configuration κ} {source : Source κ} {e : AopError}
      {u v : World κ σ ν}
      (routed : (route host below p m arguments).run w =
        some (.advised proxy c source none, v))
      (building : (chainFor host below proxy.configuration m source.type).run
        (v.exposing c.flags.exposeProxy p) = some (.error e, u)) :
      Disturbed p m arguments w e
  | refused {proxy : Proxy} {c : Configuration κ} {source : Source κ} {fixed : Option (Chain κ)}
      {chain : Chain κ} {e : AopError} {u v x : World κ σ ν}
      (routed : (route host below p m arguments).run w =
        some (.advised proxy c source fixed, v))
      (settled : (settleChain host below proxy source m fixed).run
        (v.exposing c.flags.exposeProxy p) = some (.ok chain, u))
      (acquiring : (acquire host below c.source).run { u with calls := u.calls + 1 } =
        some (.error e, x)) :
      Disturbed p m arguments w e
  | refusedDirectly {proxy : Proxy} {c : Configuration κ} {source : Source κ} {e : AopError}
      {v x : World κ σ ν}
      (routed : (route host below p m arguments).run w = some (.direct proxy c source, v))
      (acquiring : (acquire host below c.source).run { v with calls := v.calls + 1 } =
        some (.error e, x)) :
      Disturbed p m arguments w e
  | unreleased {proxy : Proxy} {c : Configuration κ} {source : Source κ}
      {fixed : Option (Chain κ)} {chain : Chain κ} {target : TargetId} {value : Option Value}
      {e : AopError} {u v x y z : World κ σ ν}
      (routed : (route host below p m arguments).run w =
        some (.advised proxy c source fixed, v))
      (settled : (settleChain host below proxy source m fixed).run
        (v.exposing c.flags.exposeProxy p) = some (.ok chain, u))
      (acquired : (acquire host below c.source).run { u with calls := u.calls + 1 } =
        some (.ok (some target), x))
      (ran : (runHolding host below u.calls p proxy source m arguments chain (some target)).run
        (x.record (.act (.acquired u.calls c.source (some target)))) = some (.ok value, y))
      (lent : source.isStatic = false)
      (releasing : (release host below c.source target).run y = some (.error e, z)) :
      Disturbed p m arguments w e

/-- The course of a call once its chain has been settled, or could not be. -/
def onceSettled (p : ProxyId) (proxy : Proxy) (id : SourceId) (source : Source κ)
    (m : MethodSignature) (arguments : List Value) :
    Except AopError (Chain κ) → Run κ σ ν Result
  | .error e => return .error e
  | .ok chain => runSettled host below p proxy id source m arguments chain

variable {host below}

section Deciding

variable {p : ProxyId} {m : MethodSignature} {arguments : List Value} {w v : World κ σ ν}

theorem accept_error {d : SubclassDispatcher κ} {id : ConfigurationId} {source : Source κ}
    {e : AopError} (h : (accept host below d id source m).run w = some (.error e, v)) :
    (chainFor host below id m (some d.targetType)).run w = some (.error e, v) := by
  by_cases hkeeps : d.keeps m = true
  · obtain ⟨own, _, hrun⟩ := accept_kept host below hkeeps id source w
    cases hrun.symm.trans h
  · rw [accept_leaves (by simpa using hkeeps), get_bind_run] at h
    rcases hc : w.configurations[id]? with _ | c
    · simp only [hc] at h
      cases h
    · simp only [hc] at h
      obtain ⟨found, u, hfound, h⟩ := run_bind_eq_some.mp h
      rcases found with e | chain
      · cases h
        exact hfound
      · cases h

/-- Choosing a callback fails only where building a chain does. -/
theorem callbackOf_error {dispatcher : DispatcherId} {id : ConfigurationId} {source : Source κ}
    {e : AopError}
    (h : (callbackOf host below dispatcher id source m).run w = some (.error e, v)) :
    ∃ d, w.dispatchers[dispatcher]? = some d ∧
      (chainFor host below id m (some d.targetType)).run w = some (.error e, v) := by
  rw [callbackOf, get_bind_run] at h
  rcases hd : w.dispatchers[dispatcher]? with _ | d
  · simp only [hd] at h
    cases h
  · simp only [hd] at h
    rcases hcallback : d.callback? m with _ | callback
    · simp only [hcallback] at h
      obtain ⟨accepted, u, haccept, h⟩ := run_bind_eq_some.mp h
      rcases accepted with e | callback
      · cases h
        exact ⟨d, rfl, accept_error haccept⟩
      · obtain ⟨_, u₁, _, h⟩ := run_bind_eq_some.mp h
        obtain ⟨_, u₂, _, h⟩ := run_bind_eq_some.mp h
        cases h
    · simp only [hcallback] at h
      cases h

/-- A call goes nowhere only if building a chain failed. -/
theorem route_unbuilt {e : AopError}
    (h : (route host below p m arguments).run w = some (.unbuilt e, v)) :
    ∃ id target u, (chainFor host below id m target).run u = some (.error e, v) := by
  cases route_decided h with
  | unbuilt parts dispatch only choosing =>
      obtain ⟨d, _, hbuilding⟩ := callbackOf_error choosing
      exact ⟨_, some d.targetType, _, hbuilding⟩
  | called parts dispatch only chosen performed =>
      rcases callbackRoute_eq_some performed with ⟨_, hr, _⟩ | ⟨_, hr, _⟩ | ⟨_, _, hr, _⟩ |
        ⟨_, hr, _⟩ | ⟨_, hr, _⟩
      all_goals cases hr

/-- What is answered without going anywhere is no undeclared failure. -/
theorem route_answered {result : Result}
    (h : (route host below p m arguments).run w = some (.answered result, v)) :
    Transparent m result := by
  cases route_decided h with
  | lost missing only => exact transparent_of_not_raised m fun f h => by cases h
  | kept parts dispatch keeps only => exact transparent_ok m _
  | refused parts dispatch regular foreign only =>
      exact transparent_of_not_raised m fun f h => by cases h
  | called parts dispatch only chosen performed =>
      rcases callbackRoute_eq_some performed with ⟨_, hr, _⟩ | ⟨_, hr, _⟩ | ⟨_, _, hr, _⟩ |
        ⟨_, hr, _⟩ | ⟨_, hr, _⟩
      · cases hr
        exact transparent_ok m _
      all_goals cases hr

end Deciding

section Running

variable {p : ProxyId} {proxy : Proxy} {id : SourceId} {source : Source κ} {m : MethodSignature}
  {arguments : List Value} {chain : Chain κ} {w : World κ σ ν}

/-- Looking at the value of a call makes no failure of it. -/
theorem finishCall_transparent {target : Option TargetId} {own result : Result}
    {w' : World κ σ ν} (hown : Transparent m own)
    (h : (finishCall p proxy m target own).run w = some (result, w')) : Transparent m result := by
  rcases own with e | value
  · cases h
    exact hown
  · rcases value with _ | value
    · simp only [finishCall, processReturn] at h
      split at h
      · cases h
        exact transparent_of_not_raised m fun f h => by cases h
      · cases h
        exact transparent_ok m none
    · simp only [finishCall, processReturn] at h
      split at h
      · obtain ⟨_, v, _, h⟩ := run_bind_eq_some.mp h
        cases h
        exact transparent_ok m _
      · cases h
        exact transparent_ok m _

/-- Without a chain the answer of the target is all there is to be translated. -/
theorem reachDirectly_arrives {call : Nat} {target : TargetId} {result : Result}
    {w' : World κ σ ν}
    (h : (reachDirectly host below call target m arguments).run w = some (result, w')) :
    ∃ own, (callTarget host below target m arguments).run
        (w.record (.act (.reached call target arguments none))) = some (own, w') ∧
      Arrives m own result := by
  obtain ⟨_, v, hrecord, h⟩ := run_bind_eq_some.mp h
  obtain ⟨own, u, hown, hend⟩ := run_bind_eq_some.mp h
  cases hrecord
  cases hend
  exact ⟨own, hown, arrives_translateUndeclared m own⟩

/-- With an empty chain or with a full one, a call that has its target is transparent. -/
theorem runChain_transparent {call : Nat} {target : Option TargetId}
    {targetType : Option TypeInfo} {result : Result} {w' : World κ σ ν}
    (h : (runChain host below call p m arguments target targetType chain).run w =
      some (result, w')) : Transparent m result := by
  simp only [runChain] at h
  split at h
  · obtain ⟨_, v, _, h⟩ := run_bind_eq_some.mp h
    rcases target with _ | target
    · cases h
      exact transparent_of_not_raised m fun f h => by cases h
    · obtain ⟨own, _, harrives⟩ := reachDirectly_arrives h
      exact harrives.transparent
  · obtain ⟨⟨own, jp'⟩, v, hv, h⟩ := run_bind_eq_some.mp h
    cases h
    rw [AtCall.invoke_eq_proceedAt] at hv
    obtain ⟨_, _, harrives⟩ := AtCall.proceedAt_arrives hv
    exact harrives.transparent

theorem runHolding_transparent {call : Nat} {target : Option TargetId} {result : Result}
    {w' : World κ σ ν}
    (h : (runHolding host below call p proxy source m arguments chain target).run w =
      some (result, w')) : Transparent m result := by
  obtain ⟨own, v, hown, h⟩ := run_bind_eq_some.mp h
  exact finishCall_transparent (runChain_transparent hown) h

/-- The chain of an advised call is settled, and then the call runs with it. -/
theorem invokeAdvised_eq (p : ProxyId) (proxy : Proxy) (c : Configuration κ) (source : Source κ)
    (m : MethodSignature) (arguments : List Value) (fixed : Option (Chain κ)) :
    invokeAdvised host below p proxy c source m arguments fixed =
      whileExposed c.flags.exposeProxy p (settleChain host below proxy source m fixed >>=
        onceSettled host below p proxy c.source source m arguments) := by
  cases fixed with
  | none => rfl
  | some chain => rfl

theorem runSettled_refused {e : AopError} {v : World κ σ ν}
    (h : (acquire host below id).run { w with calls := w.calls + 1 } = some (.error e, v)) :
    (runSettled host below p proxy id source m arguments chain).run w =
      some (.error e, v.record (.act (.refused w.calls id))) := by
  have hacquire : (acquireFor host below w.calls id).run { w with calls := w.calls + 1 } =
      some (.error e, v.record (.act (.refused w.calls id))) := by
    rw [acquireFor, run_bind_of_eq_some h]
    rfl
  rw [runSettled, beginCall_bind_run, run_bind_of_eq_some hacquire]
  rfl

theorem runSettled_taken {target : Option TargetId} {v : World κ σ ν}
    (h : (acquire host below id).run { w with calls := w.calls + 1 } = some (.ok target, v)) :
    (runSettled host below p proxy id source m arguments chain).run w =
      (runHolding host below w.calls p proxy source m arguments chain target >>=
        releaseFor host below w.calls id source target m).run
          (v.record (.act (.acquired w.calls id target))) := by
  have hacquire : (acquireFor host below w.calls id).run { w with calls := w.calls + 1 } =
      some (.ok target, v.record (.act (.acquired w.calls id target))) := by
    rw [acquireFor, run_bind_of_eq_some h]
    rfl
  rw [runSettled, beginCall_bind_run, run_bind_of_eq_some hacquire]
  simp only [runHolding, bind_assoc]

theorem releaseFor_run (call : Nat) {target : TargetId} {given : Except AopError Unit}
    {v : World κ σ ν} (hlent : source.isStatic = false)
    (h : (release host below id target).run w = some (given, v)) (m : MethodSignature)
    (outcome : Result) :
    ∃ v', (releaseFor host below call id source (some target) m outcome).run w =
      some (afterRelease outcome given, v') := by
  rw [releaseFor]
  simp only [hlent, Bool.false_eq_true, if_false]
  rw [run_bind_of_eq_some h]
  rcases given with e | _
  · rcases outcome with own | value
    · exact ⟨_, rfl⟩
    · exact ⟨_, rfl⟩
  · rcases outcome with own | value
    · exact ⟨_, rfl⟩
    · exact ⟨_, rfl⟩

/-- A call with a settled chain is transparent but for the errors of its source. -/
theorem runSettled_eq_some {result : Result} {w' : World κ σ ν}
    (h : (runSettled host below p proxy id source m arguments chain).run w = some (result, w')) :
    Transparent m result ∨
      (∃ e v, (acquire host below id).run { w with calls := w.calls + 1 } = some (.error e, v) ∧
        result = .error e) ∨
      ∃ target value e v x y,
        (acquire host below id).run { w with calls := w.calls + 1 } =
          some (.ok (some target), v) ∧
        (runHolding host below w.calls p proxy source m arguments chain (some target)).run
          (v.record (.act (.acquired w.calls id (some target)))) = some (.ok value, x) ∧
        source.isStatic = false ∧
        (release host below id target).run x = some (.error e, y) ∧ result = .error e := by
  rcases hacquire : (acquire host below id).run { w with calls := w.calls + 1 } with
    _ | ⟨acquired, v⟩
  · -- without an answer from the source the call has none either
    rw [runSettled, beginCall_bind_run, acquireFor, bind_assoc, StateT.run_bind, hacquire] at h
    cases h
  · rcases acquired with e | target
    · rw [runSettled_refused hacquire] at h
      cases h
      exact .inr (.inl ⟨e, v, rfl, rfl⟩)
    · rw [runSettled_taken hacquire] at h
      obtain ⟨outcome, x, houtcome, hrelease⟩ := run_bind_eq_some.mp h
      have htransparent := runHolding_transparent houtcome
      by_cases hkeeps : target = none ∨ source.isStatic = true
      · rw [releaseFor_kept hkeeps] at hrelease
        cases hrelease
        exact .inl htransparent
      · obtain ⟨hsome, hlent⟩ := not_or.mp hkeeps
        obtain ⟨target, rfl⟩ := Option.ne_none_iff_exists'.mp hsome
        have hlent : source.isStatic = false := by simpa using hlent
        rcases hgive : (release host below id target).run x with _ | ⟨given, y⟩
        · rw [releaseFor] at hrelease
          simp only [hlent, Bool.false_eq_true, if_false] at hrelease
          rw [StateT.run_bind, hgive] at hrelease
          cases hrelease
        · obtain ⟨v', hreleased⟩ := releaseFor_run w.calls hlent hgive m outcome
          cases hreleased.symm.trans hrelease
          rcases outcome with own | value
          · exact .inl htransparent
          · rcases given with e | _
            · exact .inr (.inr ⟨target, value, e, v, x, y, rfl, houtcome, hlent, hgive, rfl⟩)
            · exact .inl htransparent

theorem dispatchTarget_eq_some {result : Result} {w' : World κ σ ν}
    (h : (dispatchTarget host below p proxy id m arguments).run w = some (result, w')) :
    Transparent m result ∨
      ∃ e v, (acquire host below id).run { w with calls := w.calls + 1 } = some (.error e, v) ∧
        result = .error e := by
  obtain ⟨call, u, hbegin, h⟩ := run_bind_eq_some.mp h
  cases hbegin
  obtain ⟨acquired, u, hacquire, h⟩ := run_bind_eq_some.mp h
  obtain ⟨v, hacquired, rfl⟩ := acquireFor_run hacquire
  rcases acquired with e | target
  · cases h
    exact .inr ⟨e, v, hacquired, rfl⟩
  · rcases target with _ | target
    · cases h
      exact .inl (transparent_of_not_raised m fun f h => by cases h)
    · obtain ⟨reached, x, hreached, h⟩ := run_bind_eq_some.mp h
      obtain ⟨own, _, harrives⟩ := reachDirectly_arrives hreached
      exact .inl (finishCall_transparent harrives.transparent h)

theorem dispatchTarget_refused {e : AopError} {v : World κ σ ν}
    (h : (acquire host below id).run { w with calls := w.calls + 1 } = some (.error e, v)) :
    ∃ w', (dispatchTarget host below p proxy id m arguments).run w = some (.error e, w') := by
  rw [dispatchTarget, beginCall_bind_run, acquireFor, bind_assoc, run_bind_of_eq_some h]
  exact ⟨_, rfl⟩

end Running

section Calls

variable {p : ProxyId} {m : MethodSignature} {arguments : List Value} {w w' : World κ σ ν}

/-- A call on a proxy is transparent unless something fails that is not its own doing. -/
theorem invoke_transparent_or {result : Result}
    (h : (invoke host below p m arguments).run w = some (result, w')) :
    Transparent m result ∨ ∃ e, Disturbed host below p m arguments w e ∧ result = .error e := by
  rw [invoke_eq] at h
  obtain ⟨r, v, hroute, h⟩ := run_bind_eq_some.mp h
  cases r with
  | answered own =>
      cases h
      exact .inl (route_answered hroute)
  | unbuilt e =>
      cases h
      obtain ⟨id, target, u, hbuilding⟩ := route_unbuilt hroute
      exact .inr ⟨e, .unbuilt hroute hbuilding, rfl⟩
  | direct proxy c source =>
      rcases dispatchTarget_eq_some h with htransparent | ⟨e, x, hacquire, rfl⟩
      · exact .inl htransparent
      · exact .inr ⟨e, .refusedDirectly hroute hacquire, rfl⟩
  | advised proxy c source fixed =>
      change (invokeAdvised host below p proxy c source m arguments fixed).run v = _ at h
      rw [invokeAdvised_eq] at h
      obtain ⟨x, hbody, rfl⟩ := whileExposed_eq_some h
      obtain ⟨settled, u, hsettle, hrun⟩ := run_bind_eq_some.mp hbody
      rcases settled with e | chain
      · cases hrun
        cases fixed with
        | none => exact .inr ⟨e, .unsettled hroute hsettle, rfl⟩
        | some chain => cases hsettle
      · rcases runSettled_eq_some hrun with htransparent | ⟨e, y, hacquire, rfl⟩ |
          ⟨target, value, e, y, y', z, hacquire, hran, hlent, hgive, rfl⟩
        · exact .inl htransparent
        · exact .inr ⟨e, .refused hroute hsettle hacquire, rfl⟩
        · exact .inr ⟨e, .unreleased hroute hsettle hacquire hran hlent hgive, rfl⟩

/-- What fails is returned as it is. -/
theorem Disturbed.untouched {e : AopError} (h : Disturbed host below p m arguments w e) :
    ∃ w', (invoke host below p m arguments).run w = some (.error e, w') := by
  have hadvised : ∀ {proxy : Proxy} {c : Configuration κ} {source : Source κ}
      {fixed : Option (Chain κ)} {v : World κ σ ν} {settled : Except AopError (Chain κ)}
      {u x : World κ σ ν},
      (route host below p m arguments).run w = some (.advised proxy c source fixed, v) →
      (settleChain host below proxy source m fixed).run (v.exposing c.flags.exposeProxy p) =
        some (settled, u) →
      (onceSettled host below p proxy c.source source m arguments settled).run u =
        some (.error e, x) →
      ∃ w', (invoke host below p m arguments).run w = some (.error e, w') := by
    intro proxy c source fixed v settled u x hroute hsettle hrun
    rw [invoke_eq, run_bind_of_eq_some hroute]
    change ∃ w', (invokeAdvised host below p proxy c source m arguments fixed).run v = _
    rw [invokeAdvised_eq, whileExposed_run, run_bind_of_eq_some hsettle, hrun]
    exact ⟨_, rfl⟩
  cases h with
  | unbuilt routed building =>
      rw [invoke_eq, run_bind_of_eq_some routed]
      exact ⟨_, rfl⟩
  | unsettled routed building => exact hadvised routed building rfl
  | refused routed settled acquiring =>
      exact hadvised routed settled (runSettled_refused acquiring)
  | refusedDirectly routed acquiring =>
      rw [invoke_eq, run_bind_of_eq_some routed]
      exact dispatchTarget_refused acquiring
  | @unreleased _ c _ _ _ target value _ u _ x y z routed settled acquired ran lent releasing =>
      obtain ⟨v', hreleased⟩ := releaseFor_run u.calls lent releasing m (.ok value)
      refine hadvised routed settled (Eq.trans ?_ hreleased)
      rw [onceSettled]
      rw [runSettled_taken acquired, run_bind_of_eq_some ran]

/-- Checked failures that a method does not declare are wrapped where they come up, once, and
nothing else is.  This holds of what proceeding gives at every position of every chain, of the result
of a whole chain, of answers on their way up through any number of levels, and of targets reached
without a chain.  A call on a proxy ends with no such failure unless building its chain, taking its
target or giving it back fails; then it ends with that error as it is. -/
theorem undeclared_failures_wrapped (host : Host κ σ ν) (depth : Nat) :
    (∀ (chain : Chain κ) (i : Nat) (jp jp' : JoinPoint κ) (w w' : World κ σ ν) (result : Result),
      ((AtCall.proceedAt host (answer host depth) chain i).run jp).run w =
          some ((result, jp'), w') →
        ∃ own, AtCall.Yields host (answer host depth) chain i jp w own ∧
          Arrives jp.method own result) ∧
      (∀ (jp jp' : JoinPoint κ) (w w' : World κ σ ν) (result : Result),
        ((AtCall.invoke host (answer host depth)).run jp).run w = some ((result, jp'), w') →
          ∃ own, AtCall.Yields host (answer host depth) jp.chain 0 jp w own ∧
            Arrives jp.method own result) ∧
      (∀ (chain : Chain κ) (i : Nat) (jp : JoinPoint κ) (own result : Result),
        AtCall.Carried host (answer host depth) chain i jp own result →
          Arrives jp.method own result) ∧
      (∀ (call : Nat) (target : TargetId) (m : MethodSignature) (arguments : List Value)
          (w w' : World κ σ ν) (result : Result),
        (reachDirectly host (answer host depth) call target m arguments).run w =
            some (result, w') →
          ∃ own, (callTarget host (answer host depth) target m arguments).run
              (w.record (.act (.reached call target arguments none))) = some (own, w') ∧
            Arrives m own result) ∧
      ∀ (p : ProxyId) (m : MethodSignature) (arguments : List Value) (w w' : World κ σ ν)
          (result : Result),
        (invoke host (answer host depth) p m arguments).run w = some (result, w') →
          (∀ e, Disturbed host (answer host depth) p m arguments w e → result = .error e) ∧
            ((∀ e, ¬ Disturbed host (answer host depth) p m arguments w e) →
              Transparent m result) := by
  refine ⟨?_, ?_, ?_, ?_, ?_⟩
  · intro chain i jp jp' w w' result h
    exact AtCall.proceedAt_arrives h
  · intro jp jp' w w' result h
    rw [AtCall.invoke_eq_proceedAt] at h
    exact AtCall.proceedAt_arrives h
  · intro chain i jp own result h
    exact h.arrives
  · intro call target m arguments w w' result h
    exact reachDirectly_arrives h
  · intro p m arguments w w' result h
    constructor
    · intro e hdisturbed
      obtain ⟨v, huntouched⟩ := hdisturbed.untouched
      cases huntouched.symm.trans h
      rfl
    · intro hnone
      rcases invoke_transparent_or h with htransparent | ⟨e, hdisturbed, _⟩
      · exact htransparent
      · exact absurd hdisturbed (hnone e)

section Raising

def ioFailure : Failure := .mk (.checked "Io") (.message "disk full")

/-- Targets that raise a checked failure; advice proceeds. -/
def raisingHost : Host Unit Unit Unit :=
  { Host.idle with target := fun _ _ _ _ => return .error (.raised ioFailure) }

def raisingType : TypeInfo := ⟨2, "Store", [], false, false, false⟩

def raisingMethod : MethodSignature := { declaringType := raisingType, name := "write" }

/-- Makes a frozen subclass proxy of one target, without advice. -/
def raisingSetup : Code Unit Unit Unit (Except AopError ProxyId) := do
  let target ← Code.ask (.newTarget raisingType ())
  let source ← Code.ask (.newSource (.singleton target raisingType))
  Code.ask (.makeProxy { flags := { frozen := true }, source := some source })

def raisingWorld : World Unit Unit Unit := worldAfter raisingHost 1 raisingSetup (.initial ())

def raisingCall : JoinPoint Unit :=
  .opened raisingMethod [] (some 0) none
    [.settled ⟨none, .scripted ()⟩, .settled ⟨none, .scripted ()⟩] none

/-- Through two interceptors and on the shortest way, the failure of the target is wrapped once. -/
theorem undeclared_failures_wrapped_once :
    (∃ jp' w' own, ((AtCall.invoke raisingHost (answer raisingHost 1)).run raisingCall).run
          raisingWorld =
        some ((.error (.undeclared raisingMethod.text ioFailure), jp'), w') ∧
      Arrives raisingMethod own (.error (.undeclared raisingMethod.text ioFailure))) ∧
      ∃ w', (invoke raisingHost (answer raisingHost 1) 0 raisingMethod []).run raisingWorld =
          some (.error (.undeclared raisingMethod.text ioFailure), w') ∧
        Transparent raisingMethod (.error (.undeclared raisingMethod.text ioFailure)) := by
  obtain ⟨_, hinvoke, _, _, hcalls⟩ := undeclared_failures_wrapped raisingHost 1
  obtain ⟨jp', w₁, hthrough⟩ : ∃ jp' w', ((AtCall.invoke raisingHost
      (answer raisingHost 1)).run raisingCall).run raisingWorld =
        some ((.error (.undeclared raisingMethod.text ioFailure), jp'), w') := ⟨_, _, rfl⟩
  obtain ⟨w₂, hdirect⟩ : ∃ w', (invoke raisingHost (answer raisingHost 1) 0 raisingMethod []).run
      raisingWorld = some (.error (.undeclared raisingMethod.text ioFailure), w') := ⟨_, rfl⟩
  obtain ⟨own, _, harrives⟩ := hinvoke _ _ _ _ _ hthrough
  refine ⟨⟨jp', w₁, own, hthrough, harrives⟩, w₂, hdirect, ?_⟩
  apply (hcalls _ _ _ _ _ _ hdirect).2
  intro e hdisturbed
  obtain ⟨proxy, c, source, v, hroute, hsource⟩ : ∃ proxy c source v,
      (route raisingHost (answer raisingHost 1) 0 raisingMethod []).run raisingWorld =
          some (.direct proxy c source, v) ∧
        v.sources[c.source]? = some (.singleton 0 raisingType) := ⟨_, _, _, _, rfl, rfl⟩
  cases hdisturbed with
  | refusedDirectly routed acquiring =>
      cases routed.symm.trans hroute
      rw [acquire, get_bind_run] at acquiring
      simp only [hsource] at acquiring
      cases acquiring
  | unbuilt routed _ => cases routed.symm.trans hroute
  | unsettled routed _ => cases routed.symm.trans hroute
  | refused routed _ _ => cases routed.symm.trans hroute
  | unreleased routed _ _ _ _ _ => cases routed.symm.trans hroute

end Raising

end Calls

end Run

end Weaving
