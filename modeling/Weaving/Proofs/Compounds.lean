import Weaving.Proofs.Turns

/-
What holds of the parts of a call holds of the call.  A call is put together from a few things: taking
a target and giving it back, calling targets, answering the requests of user code, and recording what
happens.  A property of computations that all of these have, and that computations keep as they follow
one another, is therefore a property of every call whose chain has been settled.
-/
namespace Weaving

variable {κ σ ν α β : Type}

section Requests

variable (may : Request κ σ ν → Prop)

/-- A request at a call that may be made as far as it may be made anywhere. -/
def JoinPointRequest.Within : JoinPointRequest κ σ ν → Prop
  | .outer request => may request
  | _ => True

/-- A request of around advice that may be made as far as it may be made anywhere. -/
def AroundRequest.Within : AroundRequest κ σ ν → Prop
  | .inner request => request.Within may
  | _ => True

/-- User code that makes no other requests than it may. -/
structure Host.Asks (host : Host κ σ ν) : Prop where
  around : ∀ code, (host.around code).Asks (·.Within may)
  before : ∀ code, (host.before code).Asks (·.Within may)
  afterReturning : ∀ code value, (host.afterReturning code value).Asks (·.Within may)
  afterThrowing : ∀ code e, (host.afterThrowing code e).Asks (·.Within may)
  after : ∀ code, (host.after code).Asks (·.Within may)
  target : ∀ code target m arguments, (host.target code target m arguments).Asks may
  make : ∀ code, (host.make code).Asks may
  acquire : ∀ code, (host.acquire code).Asks may
  release : ∀ code target, (host.release code target).Asks may
  chain : ∀ code advisors preFiltered m target,
    (host.chain code advisors preFiltered m target).Asks may
  builder : ∀ code, (host.builder code).Asks may

end Requests

/-- A property of computations that recording has, and that holds of one computation after another if
it holds of both. -/
structure Composes (P : (α : Type) → Run κ σ ν α → Prop) : Prop where
  pure : ∀ {α : Type} (a : α), P α (Pure.pure a)
  bind : ∀ {α β : Type} {x : Run κ σ ν α} {f : α → Run κ σ ν β}, P α x → (∀ a, P β (f a)) →
    P β (x >>= f)
  record : ∀ e, P Unit (Run.record e)

/-- Such a property that everything done at a call has. -/
structure Comprises (host : Host κ σ ν) (below : Handler κ σ ν) (may : Request κ σ ν → Prop)
    (P : (α : Type) → Run κ σ ν α → Prop) : Prop extends Composes P where
  beginCall : P Nat Run.beginCall
  asks : host.Asks may
  requests : ∀ r, may r → P _ (below r)
  callTarget : ∀ target m arguments, P _ (Run.callTarget host below target m arguments)

variable {host : Host κ σ ν} {below : Handler κ σ ν} {may : Request κ σ ν → Prop}
  {P : (α : Type) → Run κ σ ν α → Prop}

namespace Composes

theorem map (h : Composes P) {x : Run κ σ ν α} (hx : P α x) (f : α → β) :
    P β (x >>= fun a => Pure.pure (f a)) :=
  h.bind hx fun a => h.pure (f a)

theorem log (h : Composes P) (line : LogLine) : P Unit (Run.log line) :=
  h.record _

theorem trace (h : Composes P) (message : String) : P Unit (Run.trace message) :=
  h.record _

/-- Code that makes no other requests than it may. -/
theorem program (h : Composes P) (hbelow : ∀ r, may r → P _ (below r)) {p : Code κ σ ν α}
    (hp : p.Asks may) : P α (p.run below) := by
  induction p with
  | done a => exact h.pure a
  | ask r resume ih => exact h.bind (hbelow r hp.1) fun answer => ih answer (hp.2 answer)

end Composes

namespace AtCall

/-- A property of computations that a computation at a call has, whatever has become of the call. -/
def Has (P : (α : Type) → Run κ σ ν α → Prop) (x : AtCall κ σ ν α) : Prop :=
  ∀ jp : JoinPoint κ, P (α × JoinPoint κ) (x.run jp)

namespace Has

theorem pure (h : Comprises host below may P) (a : α) : Has P (Pure.pure a : AtCall κ σ ν α) :=
  fun jp => h.pure (a, jp)

theorem bind (h : Comprises host below may P) {x : AtCall κ σ ν α} {f : α → AtCall κ σ ν β}
    (hx : Has P x) (hf : ∀ a, Has P (f a)) : Has P (x >>= f) := by
  intro jp
  rw [StateT.run_bind]
  exact h.bind (hx jp) fun p => hf p.1 p.2

theorem get_bind {f : JoinPoint κ → AtCall κ σ ν β} (hf : ∀ jp, Has P (f jp)) :
    Has P (get >>= f) :=
  fun jp => hf jp jp

theorem change (h : Comprises host below may P) (change : JoinPoint κ → JoinPoint κ) :
    Has P (modify change : AtCall κ σ ν Unit) :=
  fun jp => h.pure ((), change jp)

theorem lift (h : Comprises host below may P) {x : Run κ σ ν α} (hx : P α x) :
    Has P (liftM x : AtCall κ σ ν α) :=
  fun jp => h.map hx fun a => (a, jp)

theorem log (h : Comprises host below may P) (level : Level) (message : String)
    (fields : List (String × String)) :
    Has P (AtCall.log level message fields : AtCall κ σ ν Unit) :=
  lift h (h.log _)

theorem act (h : Comprises host below may P) (a : Nat → Act) :
    Has P (AtCall.act a : AtCall κ σ ν Unit) :=
  get_bind fun _ => lift h (h.record _)

theorem code (h : Comprises host below may P) {Req : Type} {Ans : Req → Type}
    {handle : (r : Req) → AtCall κ σ ν (Ans r)} {within : Req → Prop}
    (hhandle : ∀ r, within r → Has P (handle r)) {p : Program Req Ans α}
    (hp : p.Asks within) : Has P (p.run handle) := by
  induction p with
  | done a => exact pure h a
  | ask r resume ih => exact bind h (hhandle r hp.1) fun answer => ih answer (hp.2 answer)

end Has

theorem answer_has (h : Comprises host below may P) (r : JoinPointRequest κ σ ν)
    (hr : r.Within may) : Has P (answer below r) := by
  cases r with
  | outer request => exact .lift h (h.requests request hr)
  | view => exact .get_bind fun jp => .pure h jp
  | setArguments arguments => exact .change h _
  | setAttribute name value => exact .change h _

theorem settle_has (h : Comprises host below may P) (result : Result) :
    Has P (settle result : AtCall κ σ ν Result) :=
  .bind h (.change h _) fun _ => .pure h _

theorem reach_has (h : Comprises host below may P) (target : TargetId) (phase : Option Phase) :
    Has P (reach host below target phase) :=
  .get_bind fun _ => .bind h (.act h _) fun _ => .lift h (h.callTarget _ _ _)

theorem reachTarget_has (h : Comprises host below may P) : Has P (reachTarget host below) := by
  refine .get_bind fun jp => ?_
  split
  · exact settle_has h _
  · refine .bind h (.change h _) fun _ => .get_bind fun jp' => ?_
    exact .bind h (reach_has h _ _) fun result => settle_has h result

theorem delegateTo_has (h : Comprises host below may P) (delegate : TargetId) :
    Has P (delegateTo host below delegate) := by
  refine .bind h (reach_has h delegate none) fun result => ?_
  rcases result with e | value
  · exact .pure h _
  · dsimp only
    split
    · refine .get_bind fun jp => ?_
      split
      · exact .pure h _
      · exact .pure h _
    · exact .pure h _

section Proceeding

variable {proceed : AtCall κ σ ν Result}

theorem retry_has (h : Comprises host below may P) (hproceed : Has P proceed)
    (limit remaining : Nat) :
    ∀ attempt : Nat, Has P (retry limit proceed attempt remaining) := by
  induction remaining with
  | zero => exact fun _ => hproceed
  | succ remaining ih =>
      intro attempt
      refine .bind h hproceed fun result => ?_
      rcases result with e | value
      · dsimp only
        split
        · exact .get_bind fun jp => .bind h (.log h _ _ _) fun _ => ih (attempt + 1)
        · exact .pure h _
      · exact .pure h _

/-- Advice in the form of an interceptor, by the form. -/
theorem intercept_has (h : Comprises host below may P) (hproceed : Has P proceed)
    (action : Action κ) (position : Nat) :
    Has P (intercept host below action position proceed) := by
  have hcode {γ : Type} {p : JoinPointCode κ σ ν γ} (hp : p.Asks (·.Within may)) :
      Has P (p.run (answer below)) := .code h (answer_has h) hp
  cases action with
  | scripted code =>
      refine .code h (fun r hr => ?_) (h.asks.around code)
      cases r with
      | inner request => exact answer_has h request hr
      | proceed => exact hproceed
      | position => exact .pure h _
  | before code =>
      refine .bind h (hcode (h.asks.before code)) fun before => ?_
      rcases before with e | _
      · exact .pure h _
      · exact hproceed
  | afterReturning code =>
      refine .bind h hproceed fun result => ?_
      rcases result with e | value
      · exact .pure h _
      · refine .bind h (hcode (h.asks.afterReturning code value)) fun after => ?_
        rcases after with e | _
        · exact .pure h _
        · exact .pure h _
  | afterThrowing code =>
      refine .bind h hproceed fun result => ?_
      rcases result with e | value
      · refine .bind h (hcode (h.asks.afterThrowing code e)) fun after => ?_
        rcases after with replacement | _
        · exact .pure h _
        · exact .pure h _
      · exact .pure h _
  | after code =>
      refine .bind h hproceed fun result => .bind h (hcode (h.asks.after code)) fun after => ?_
      rcases result with e | value
      · exact .pure h _
      · rcases after with e | _
        · exact .pure h _
        · exact .pure h _
  | delegate target interfaces =>
      refine .get_bind fun jp => ?_
      split
      · exact delegateTo_has h target
      · exact hproceed
  | logging withArguments =>
      refine .get_bind fun jp => .bind h (.log h _ _ _) fun _ => .bind h hproceed fun result => ?_
      rcases result with e | value
      · exact .bind h (.log h _ _ _) fun _ => .pure h _
      · exact .bind h (.log h _ _ _) fun _ => .pure h _
  | performance threshold =>
      refine .get_bind fun jp => .bind h hproceed fun result => ?_
      split
      · exact .bind h (.log h _ _ _) fun _ => .pure h _
      · exact .bind h (.log h _ _ _) fun _ => .pure h _
  | exceptionLogging =>
      refine .get_bind fun jp => .bind h hproceed fun result => ?_
      rcases result with e | value
      · exact .bind h (.log h _ _ _) fun _ => .pure h _
      · exact .pure h _
  | retry limit => exact retry_has h hproceed _ _ _

theorem translated_has (h : Comprises host below may P) {rest : AtCall κ σ ν Result}
    (hrest : Has P rest) (index : Nat) : Has P (translated index rest) := by
  refine .get_bind fun jp => .bind h hrest fun result => .get_bind fun jp' => ?_
  exact .bind h (.act h _) fun _ => .pure h _

end Proceeding

/-- By induction on how much of the chain is left. -/
theorem proceedFrom_has (h : Comprises host below may P) (chain : Chain κ) :
    ∀ index : Nat, Has P (proceedFrom host below chain index) := by
  induction chain with
  | nil => exact fun index => reachTarget_has h
  | cons entry rest ih =>
      intro index
      refine .get_bind fun jp => ?_
      split
      · refine .bind h (.change h _) fun _ => .get_bind fun jp' => .bind h (.act h _) fun _ => ?_
        refine .bind h ?_ fun result => settle_has h result
        exact intercept_has h (translated_has h (ih (index + 1)) (index + 1)) _ _
      · exact .bind h (.log h _ _ _) fun _ => ih (index + 1)

theorem invoke_has (h : Comprises host below may P) : Has P (invoke host below) :=
  .get_bind fun jp => translated_has h (proceedFrom_has h jp.chain 0) 0

end AtCall

namespace Run

theorem runJoinPoint_has (h : Comprises host below may P) (jp : JoinPoint κ) :
    P _ (runJoinPoint host below jp) :=
  h.bind h.beginCall fun call => AtCall.invoke_has h { jp with call := call }

theorem reachDirectly_has (h : Comprises host below may P) (call : Nat) (target : TargetId)
    (m : MethodSignature) (arguments : List Value) :
    P _ (reachDirectly host below call target m arguments) :=
  h.bind (h.record _) fun _ => h.map (h.callTarget target m arguments) _

theorem runChain_has (h : Comprises host below may P) (call : Nat) (p : ProxyId)
    (m : MethodSignature) (arguments : List Value) (target : Option TargetId)
    (type : Option TypeInfo) (chain : Chain κ) :
    P _ (runChain host below call p m arguments target type chain) := by
  simp only [runChain]
  split
  · refine h.bind (h.trace _) fun _ => ?_
    rcases target with _ | target
    · exact h.pure _
    · exact reachDirectly_has h call target m arguments
  · exact h.map (AtCall.invoke_has h _) _

theorem finishCall_has (h : Composes P) (p : ProxyId) (proxy : Proxy)
    (m : MethodSignature) (target : Option TargetId) (outcome : Result) :
    P _ (finishCall p proxy m target outcome) := by
  rcases outcome with e | value
  · exact h.pure _
  · rcases value with _ | value
    · rw [finishCall, processReturn]
      split
      · exact h.pure _
      · exact h.pure _
    · rw [finishCall, processReturn]
      split
      · exact h.map (h.trace _) _
      · exact h.pure _

theorem acquireFor_has (h : Composes P) {id : SourceId} (hacquire : P _ (acquire host below id))
    (call : Nat) : P _ (acquireFor host below call id) := by
  refine h.bind hacquire fun acquired => ?_
  rcases acquired with e | target
  · exact h.map (h.record _) _
  · exact h.map (h.record _) _

theorem releaseFor_has (h : Composes P) {id : SourceId}
    (hrelease : ∀ target, P _ (release host below id target)) (call : Nat) (source : Source κ)
    (target : Option TargetId) (m : MethodSignature) (outcome : Result) :
    P _ (releaseFor host below call id source target m outcome) := by
  rcases target with _ | target
  · exact h.pure _
  · rw [releaseFor]
    split
    · exact h.pure _
    · refine h.bind (hrelease target) fun given => h.bind (h.record _) fun _ => ?_
      rcases given with e | _
      · refine h.bind (h.log _) fun _ => ?_
        rcases outcome with own | value
        · exact h.pure _
        · exact h.pure _
      · exact h.pure _

theorem runSettled_has (h : Comprises host below may P) {id : SourceId}
    (hacquire : P _ (acquire host below id))
    (hrelease : ∀ target, P _ (release host below id target)) (p : ProxyId) (proxy : Proxy)
    (source : Source κ) (m : MethodSignature) (arguments : List Value)
    (chain : Chain κ) : P _ (runSettled host below p proxy id source m arguments chain) := by
  refine h.bind h.beginCall fun call => ?_
  refine h.bind (acquireFor_has h.toComposes hacquire call) fun acquired => ?_
  rcases acquired with e | target
  · exact h.pure _
  · refine h.bind (runChain_has h call p m arguments target source.type chain) fun outcome => ?_
    refine h.bind (finishCall_has h.toComposes p proxy m target outcome) fun delivered => ?_
    exact releaseFor_has h.toComposes hrelease call source target m delivered

theorem dispatchTarget_has (h : Comprises host below may P) {id : SourceId}
    (hacquire : P _ (acquire host below id)) (p : ProxyId) (proxy : Proxy) (m : MethodSignature)
    (arguments : List Value) :
    P _ (dispatchTarget host below p proxy id m arguments) := by
  refine h.bind h.beginCall fun call => ?_
  refine h.bind (acquireFor_has h.toComposes hacquire call) fun acquired => ?_
  rcases acquired with e | target
  · exact h.pure _
  · rcases target with _ | target
    · exact h.pure _
    · refine h.bind (reachDirectly_has h call target m arguments) fun outcome => ?_
      exact finishCall_has h.toComposes p proxy m (some target) outcome

end Run

end Weaving
