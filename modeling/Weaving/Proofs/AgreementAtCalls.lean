import Weaving.Proofs.Agreement
import Weaving.Proofs.Transparency

/-
A call does the same under two ways of answering requests: its chain, the target it takes and gives
back, and what it does about the proxy being exposed.  While the proxy is exposed, the requests need
to be answered alike with the proxy being what is exposed.
-/
namespace Weaving

variable {κ σ ν α β : Type} {host : Host κ σ ν} {identity : MethodKey → Prop} {guards : Prop}
  {slot : Option Value → Prop} {below below' : Handler κ σ ν}

namespace AtCall

/-- Two computations at a call do the same where something holds, and it goes on to hold. -/
def Agree (I : World κ σ ν → Prop) (x y : AtCall κ σ ν α) : Prop :=
  ∀ jp : JoinPoint κ, Run.Agree I (x.run jp) (y.run jp)

namespace Agree

variable {I : World κ σ ν → Prop}

theorem pure (a : α) : Agree I (Pure.pure a : AtCall κ σ ν α) (Pure.pure a) :=
  fun jp => Run.Agree.pure (a, jp)

theorem bind {x y : AtCall κ σ ν α} {f g : α → AtCall κ σ ν β} (hxy : Agree I x y)
    (hfg : ∀ a, Agree I (f a) (g a)) : Agree I (x >>= f) (y >>= g) := by
  intro jp
  rw [StateT.run_bind, StateT.run_bind]
  exact (hxy jp).bind fun p => hfg p.1 p.2

theorem get_bind {f g : JoinPoint κ → AtCall κ σ ν β} (h : ∀ jp, Agree I (f jp) (g jp)) :
    Agree I (get >>= f) (get >>= g) :=
  fun jp => h jp jp

theorem modify (change : JoinPoint κ → JoinPoint κ) :
    Agree I (modify change : AtCall κ σ ν Unit) (modify change) :=
  fun jp => Run.Agree.pure ((), change jp)

theorem lift {x y : Run κ σ ν α} (h : Run.Agree I x y) :
    Agree I (liftM x : AtCall κ σ ν α) (liftM y) :=
  fun jp => h.bind fun a => Run.Agree.pure (a, jp)

theorem code {Req : Type} {Ans : Req → Type} {handle handle' : (r : Req) → AtCall κ σ ν (Ans r)}
    {may : Req → Prop} (hhandle : ∀ r, may r → Agree I (handle r) (handle' r))
    {p : Program Req Ans α} (hp : p.Asks may) : Agree I (p.run handle) (p.run handle') := by
  induction p with
  | done a => exact pure a
  | ask r resume ih => exact (hhandle r hp.1).bind fun answer => ih answer (hp.2 answer)

end Agree

theorem log_agree (level : Level) (message : String) (fields : List (String × String)) :
    Agree (World.Inside host identity slot) (log level message fields : AtCall κ σ ν Unit)
      (log level message fields) :=
  .lift (.log _)

theorem act_agree (a : Nat → Act) :
    Agree (World.Inside host identity slot) (act a : AtCall κ σ ν Unit) (act a) :=
  .get_bind fun _ => .lift (.record _)

theorem answer_agree (h : Accord host identity guards slot below below')
    {r : JoinPointRequest κ σ ν} (hr : r.Proper identity guards) :
    Agree (World.Inside host identity slot) (answer below r) (answer below' r) := by
  cases r with
  | outer request => exact .lift (h.requests request hr)
  | view => exact .get_bind fun jp => .pure jp
  | setArguments arguments => exact .modify _
  | setAttribute name value => exact .modify _

theorem settle_agree (result : Result) :
    Agree (World.Inside host identity slot) (settle result : AtCall κ σ ν Result)
      (settle result) :=
  (Agree.modify _).bind fun _ => .pure _

theorem reach_agree (h : Accord host identity guards slot below below') (target : TargetId)
    (phase : Option Phase) :
    Agree (World.Inside host identity slot) (reach host below target phase)
      (reach host below' target phase) :=
  .get_bind fun _ => (act_agree _).bind fun _ => .lift (Run.callTarget_agree h _ _ _)

theorem reachTarget_agree (h : Accord host identity guards slot below below') :
    Agree (World.Inside host identity slot) (reachTarget host below)
      (reachTarget host below') := by
  refine .get_bind fun jp => ?_
  split
  · exact settle_agree _
  · refine (Agree.modify _).bind fun _ => .get_bind fun jp' => ?_
    exact (reach_agree h _ _).bind fun result => settle_agree result

theorem delegateTo_agree (h : Accord host identity guards slot below below')
    (delegate : TargetId) :
    Agree (World.Inside host identity slot) (delegateTo host below delegate)
      (delegateTo host below' delegate) := by
  apply (reach_agree h delegate none).bind
  intro result
  rcases result with e | value
  · exact .pure _
  · dsimp only
    split
    · refine .get_bind fun jp => ?_
      split
      · exact .pure _
      · exact .pure _
    · exact .pure _

section Proceeding

variable {proceed proceed' : AtCall κ σ ν Result}

theorem retry_agree (hproceed : Agree (World.Inside host identity slot) proceed proceed')
    (limit remaining : Nat) : ∀ attempt : Nat,
      Agree (World.Inside host identity slot) (retry limit proceed attempt remaining)
        (retry limit proceed' attempt remaining) := by
  induction remaining with
  | zero => exact fun _ => hproceed
  | succ remaining ih =>
      intro attempt
      apply hproceed.bind
      intro result
      rcases result with e | value
      · dsimp only
        split
        · exact .get_bind fun jp => (log_agree _ _ _).bind fun _ => ih (attempt + 1)
        · exact .pure _
      · exact .pure _

theorem logCall_agree (hproceed : Agree (World.Inside host identity slot) proceed proceed')
    (withArguments : Bool) :
    Agree (World.Inside host identity slot) (logCall withArguments proceed)
      (logCall withArguments proceed') := by
  refine .get_bind fun jp => (log_agree _ _ _).bind fun _ => hproceed.bind fun result => ?_
  rcases result with e | value
  · exact (log_agree _ _ _).bind fun _ => .pure _
  · exact (log_agree _ _ _).bind fun _ => .pure _

theorem timeCall_agree (hproceed : Agree (World.Inside host identity slot) proceed proceed')
    (threshold : Nat) :
    Agree (World.Inside host identity slot) (timeCall threshold proceed)
      (timeCall threshold proceed') := by
  refine .get_bind fun jp => hproceed.bind fun result => ?_
  split
  · exact (log_agree _ _ _).bind fun _ => .pure _
  · exact (log_agree _ _ _).bind fun _ => .pure _

theorem logError_agree (hproceed : Agree (World.Inside host identity slot) proceed proceed') :
    Agree (World.Inside host identity slot) (logError proceed) (logError proceed') := by
  refine .get_bind fun jp => hproceed.bind fun result => ?_
  rcases result with e | value
  · exact (log_agree _ _ _).bind fun _ => .pure _
  · exact .pure _

theorem intercept_agree (h : Accord host identity guards slot below below')
    (hproceed : Agree (World.Inside host identity slot) proceed proceed') (action : Action κ)
    (position : Nat) :
    Agree (World.Inside host identity slot) (intercept host below action position proceed)
      (intercept host below' action position proceed') := by
  have hanswer := fun (r : JoinPointRequest κ σ ν) => answer_agree h (r := r)
  cases action with
  | scripted code =>
      refine .code (fun r hr => ?_) (h.proper.around code)
      cases r with
      | inner request => exact hanswer request hr
      | proceed => exact hproceed
      | position => exact .pure _
  | before code =>
      apply (Agree.code hanswer (h.proper.before code)).bind
      intro before
      rcases before with e | _
      · exact .pure _
      · exact hproceed
  | afterReturning code =>
      apply hproceed.bind
      intro result
      rcases result with e | value
      · exact .pure _
      · apply (Agree.code hanswer (h.proper.afterReturning code value)).bind
        intro after
        rcases after with e | _
        · exact .pure _
        · exact .pure _
  | afterThrowing code =>
      apply hproceed.bind
      intro result
      rcases result with e | value
      · apply (Agree.code hanswer (h.proper.afterThrowing code e)).bind
        intro after
        rcases after with replacement | _
        · exact .pure _
        · exact .pure _
      · exact .pure _
  | after code =>
      refine hproceed.bind fun result =>
        (Agree.code hanswer (h.proper.after code)).bind fun after => ?_
      rcases result with e | value
      · exact .pure _
      · rcases after with e | _
        · exact .pure _
        · exact .pure _
  | delegate target interfaces =>
      refine .get_bind fun jp => ?_
      split
      · exact delegateTo_agree h target
      · exact hproceed
  | logging withArguments => exact logCall_agree hproceed withArguments
  | performance threshold => exact timeCall_agree hproceed threshold
  | exceptionLogging => exact logError_agree hproceed
  | retry limit => exact retry_agree hproceed _ _ _

theorem translated_agree {rest rest' : AtCall κ σ ν Result}
    (hrest : Agree (World.Inside host identity slot) rest rest') (index : Nat) :
    Agree (World.Inside host identity slot) (translated index rest) (translated index rest') := by
  refine .get_bind fun jp => hrest.bind fun result => .get_bind fun jp' => ?_
  exact (act_agree _).bind fun _ => .pure _

end Proceeding

theorem proceedFrom_agree (h : Accord host identity guards slot below below') (chain : Chain κ) :
    ∀ index : Nat, Agree (World.Inside host identity slot) (proceedFrom host below chain index)
      (proceedFrom host below' chain index) := by
  induction chain with
  | nil => exact fun index => reachTarget_agree h
  | cons entry rest ih =>
      intro index
      refine .get_bind fun jp => ?_
      split
      · refine (Agree.modify _).bind fun _ => .get_bind fun jp' => (act_agree _).bind fun _ => ?_
        refine Agree.bind ?_ fun result => settle_agree result
        exact intercept_agree h (translated_agree (ih (index + 1)) (index + 1)) _ _
      · exact (log_agree _ _ _).bind fun _ => ih (index + 1)

theorem invoke_agree (h : Accord host identity guards slot below below') :
    Agree (World.Inside host identity slot) (invoke host below) (invoke host below') :=
  .get_bind fun jp => translated_agree (proceedFrom_agree h jp.chain 0) 0

end AtCall

namespace Run

theorem runJoinPoint_agree (h : Accord host identity guards slot below below')
    (jp : JoinPoint κ) :
    Agree (World.Inside host identity slot) (runJoinPoint host below jp)
      (runJoinPoint host below' jp) :=
  Agree.beginCall.bind fun call => AtCall.invoke_agree h { jp with call := call }

theorem reachDirectly_agree (h : Accord host identity guards slot below below') (call : Nat)
    (target : TargetId) (m : MethodSignature) (arguments : List Value) :
    Agree (World.Inside host identity slot) (reachDirectly host below call target m arguments)
      (reachDirectly host below' call target m arguments) :=
  (Agree.record _).bind fun _ => (callTarget_agree h target m arguments).bind fun _ => .pure _

theorem finishCall_agree (p : ProxyId) (proxy : Proxy) (m : MethodSignature)
    (target : Option TargetId) (result : Result) :
    Agree (World.Inside host identity slot)
      (finishCall p proxy m target result : Run κ σ ν Result)
      (finishCall p proxy m target result) := by
  rcases result with e | value
  · exact .pure _
  · rcases value with _ | value
    · unfold finishCall processReturn
      dsimp only
      split
      · exact .pure _
      · exact .pure _
    · unfold finishCall processReturn
      dsimp only
      split
      · exact (Agree.trace _).bind fun _ => .pure _
      · exact .pure _

theorem runChain_agree (h : Accord host identity guards slot below below') (call : Nat)
    (p : ProxyId) (m : MethodSignature) (arguments : List Value) (target : Option TargetId)
    (type : Option TypeInfo) (chain : Chain κ) :
    Agree (World.Inside host identity slot)
      (runChain host below call p m arguments target type chain)
      (runChain host below' call p m arguments target type chain) := by
  simp only [runChain]
  split
  · apply (Agree.trace _).bind
    intro _
    rcases target with _ | target
    · exact .pure _
    · exact reachDirectly_agree h call target m arguments
  · exact (AtCall.invoke_agree h _).bind fun _ => .pure _

theorem acquireFor_agree (h : Accord host identity guards slot below below') (call : Nat)
    (id : SourceId) :
    Agree (World.Inside host identity slot) (acquireFor host below call id)
      (acquireFor host below' call id) := by
  apply (acquire_agree h id).bind
  intro found
  rcases found with e | target
  · exact (Agree.record _).bind fun _ => .pure _
  · exact (Agree.record _).bind fun _ => .pure _

theorem releaseFor_agree (h : Accord host identity guards slot below below') (call : Nat)
    (id : SourceId) (source : Source κ) (target : Option TargetId) (m : MethodSignature)
    (outcome : Result) :
    Agree (World.Inside host identity slot) (releaseFor host below call id source target m outcome)
      (releaseFor host below' call id source target m outcome) := by
  rcases target with _ | target
  · exact .pure _
  · unfold releaseFor
    dsimp only
    split
    · exact .pure _
    · refine (release_agree h id target).bind fun released => (Agree.record _).bind fun _ => ?_
      rcases released with e | _
      · apply (Agree.log _).bind
        intro _
        rcases outcome with own | value
        · exact .pure _
        · exact .pure _
      · exact .pure _

theorem runSettled_agree (h : Accord host identity guards slot below below') (p : ProxyId)
    (proxy : Proxy) (id : SourceId) (source : Source κ) (m : MethodSignature)
    (arguments : List Value) (chain : Chain κ) :
    Agree (World.Inside host identity slot)
      (runSettled host below p proxy id source m arguments chain)
      (runSettled host below' p proxy id source m arguments chain) := by
  refine Agree.beginCall.bind fun call => (acquireFor_agree h call id).bind fun acquired => ?_
  rcases acquired with e | target
  · exact .pure _
  · refine (runChain_agree h call p m arguments target source.type chain).bind fun outcome => ?_
    refine (finishCall_agree p proxy m target outcome).bind fun result => ?_
    exact releaseFor_agree h call id source target m result

theorem dispatchTarget_agree (h : Accord host identity guards slot below below') (p : ProxyId)
    (proxy : Proxy) (id : SourceId) (m : MethodSignature) (arguments : List Value) :
    Agree (World.Inside host identity slot) (dispatchTarget host below p proxy id m arguments)
      (dispatchTarget host below' p proxy id m arguments) := by
  refine Agree.beginCall.bind fun call => (acquireFor_agree h call id).bind fun acquired => ?_
  rcases acquired with e | target
  · exact .pure _
  · rcases target with _ | target
    · exact .pure _
    · refine (reachDirectly_agree h call target m arguments).bind fun result => ?_
      exact finishCall_agree p proxy m (some target) result

theorem settledCourse_agree (h : Accord host identity guards slot below below') (p : ProxyId)
    (proxy : Proxy) (c : Configuration κ) (source : Source κ) (m : MethodSignature)
    (arguments : List Value) (fixed : Option (Chain κ)) :
    Agree (World.Inside host identity slot)
      (settleChain host below proxy source m fixed >>=
        onceSettled host below p proxy c.source source m arguments)
      (settleChain host below' proxy source m fixed >>=
        onceSettled host below' p proxy c.source source m arguments) := by
  refine Agree.bind ?_ fun settled => ?_
  · rcases fixed with _ | chain
    · exact chainFor_agree h proxy.configuration m source.type
    · exact .pure _
  · rcases settled with e | chain
    · exact .pure _
    · exact runSettled_agree h p proxy c.source source m arguments chain

section Exposing

variable {w : World κ σ ν} {within : Option Value → Prop}

/-- A proxy that may be exposed, and what the requests of its call may find exposed then: the proxy
itself, or else what they might have found before. -/
structure Opens (exposed : Bool) (p : ProxyId) (slot within : Option Value → Prop) : Prop where
  shown : exposed = true → within (some (.proxy p))
  hidden : exposed = false → within = slot

theorem whileExposed_agreeAt {exposed : Bool} {p : ProxyId} {body body' : Run κ σ ν α}
    (hopens : Opens exposed p slot within) (hw : w.Inside host identity slot)
    (hbody : Agree (World.Inside host identity within) body body') :
    AgreeAt (World.Inside host identity slot) (whileExposed exposed p body)
      (whileExposed exposed p body') w := by
  rcases exposed with _ | _
  · obtain rfl := hopens.hidden rfl
    exact hbody w hw
  · have hentered : (w.exposing true p).Inside host identity within :=
      ⟨hw.visited.exposing true p, hopens.shown rfl⟩
    have hagree := hbody _ hentered
    refine ⟨?_, fun hrun => ?_⟩
    · rw [whileExposed_run, whileExposed_run, hagree.same]
    · obtain ⟨v, hv, rfl⟩ := whileExposed_eq_some hrun
      exact ⟨(hagree.ends hv).visited.turn (.exposed v _), hw.exposed⟩

theorem invokeAdvised_agreeAt {p : ProxyId} {proxy : Proxy} {c : Configuration κ}
    (hopens : Opens c.flags.exposeProxy p slot within)
    (h : Accord host identity guards within below below') (hw : w.Inside host identity slot)
    (source : Source κ) (m : MethodSignature) (arguments : List Value)
    (fixed : Option (Chain κ)) :
    AgreeAt (World.Inside host identity slot)
      (invokeAdvised host below p proxy c source m arguments fixed)
      (invokeAdvised host below' p proxy c source m arguments fixed) w := by
  rw [invokeAdvised_eq, invokeAdvised_eq]
  exact whileExposed_agreeAt hopens hw (settledCourse_agree h p proxy c source m arguments fixed)

end Exposing

end Run

end Weaving
