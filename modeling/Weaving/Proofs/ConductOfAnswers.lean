import Weaving.Proofs.Conduct

/-
What the engine makes of a world when it runs calls, makes proxies and answers requests: it keeps to
every relation between worlds that allows what is done about sources, targets and what is exposed.
-/
namespace Weaving

variable {κ σ ν α : Type}

namespace Run

variable {host : Host κ σ ν} {below : Handler κ σ ν} {may : Request κ σ ν → Prop}
  {R : World κ σ ν → World κ σ ν → Prop}

section Calls

theorem runHolding_moves (h : Conduct host below may R) (call : Nat) (p : ProxyId) (proxy : Proxy)
    (source : Source κ) (m : MethodSignature) (arguments : List Value) (chain : Chain κ)
    (target : Option TargetId) :
    Moves R (runHolding host below call p proxy source m arguments chain target) :=
  h.bind (runChain_has (comprises_moves h) call p m arguments target source.type chain)
    fun outcome => finishCall_has h.composes p proxy m target outcome

/-- A call with a settled chain takes its target before everything and gives it back after it. -/
theorem runSettled_eq (p : ProxyId) (proxy : Proxy) (id : SourceId) (source : Source κ)
    (m : MethodSignature) (arguments : List Value) (chain : Chain κ) :
    runSettled host below p proxy id source m arguments chain =
      beginCall >>= fun call => acquireFor host below call id >>= fun
        | .error e => pure (.error e)
        | .ok target => runHolding host below call p proxy source m arguments chain target >>=
            releaseFor host below call id source target m := by
  unfold runSettled runHolding
  congr
  funext call
  congr
  funext acquired
  rcases acquired with e | target
  · rfl
  · exact (bind_assoc _ _ _).symm

theorem runSettled_moves (h : Conduct host below may R) (p : ProxyId) (proxy : Proxy)
    (id : SourceId) (source : Source κ) (m : MethodSignature) (arguments : List Value)
    (chain : Chain κ) :
    Moves R (runSettled host below p proxy id source m arguments chain) := by
  rw [runSettled_eq]
  refine h.bind (h.exchange fun _ => ⟨rfl, rfl, rfl⟩) fun call => ?_
  refine h.borrowed call id source m _ fun target => ?_
  exact runHolding_moves h call p proxy source m arguments chain target

theorem invokeAdvised_moves (h : Conduct host below may R) (p : ProxyId) (proxy : Proxy)
    (c : Configuration κ) (source : Source κ) (m : MethodSignature) (arguments : List Value)
    (fixed : Option (Chain κ)) :
    Moves R (invokeAdvised host below p proxy c source m arguments fixed) := by
  refine h.shown _ p ?_
  split
  · exact runSettled_moves h p proxy c.source source m arguments _
  · refine h.bind (chainFor_moves h _ _ _) fun found => ?_
    rcases found with e | chain
    · exact h.pure _
    · exact runSettled_moves h p proxy c.source source m arguments chain

theorem identityAnswer_moves (h : Conduct host below may R) (p : ProxyId) (m : MethodSignature)
    (arguments : List Value) (equalsDefined hashDefined : Bool) :
    Moves R (identityAnswer p m arguments equalsDefined hashDefined :
      Run κ σ ν (Option Result)) := by
  unfold identityAnswer
  split
  · split
    · exact h.pure _
    · exact get_bind_moves fun w => h.pure _
  · split
    · exact h.pure _
    · exact get_bind_moves fun w => h.pure _
  · exact h.map (h.trace _) _
  · exact h.pure _

theorem withProxy_moves (h : Conduct host below may R) (p : ProxyId) (m : MethodSignature)
    {body : Proxy → Configuration κ → Source κ → Run κ σ ν Result}
    (hbody : ∀ proxy c source, Moves R (body proxy c source)) : Moves R (withProxy p m body) := by
  rw [withProxy_eq]
  refine get_bind_moves fun w => ?_
  split
  · exact h.pure _
  · exact hbody _ _ _

theorem routeByContracts_moves (h : Conduct host below may R) (d : ContractDispatcher)
    (p : ProxyId) (m : MethodSignature) (arguments : List Value) :
    Moves R (routeByContracts host below d p m arguments) := by
  refine withProxy_moves h p m fun proxy c source => ?_
  refine h.bind (identityAnswer_moves h p m arguments _ _) fun own => ?_
  rcases own with _ | result
  · dsimp only
    split
    · exact h.pure _
    · exact invokeAdvised_moves h p proxy c source m arguments none
  · exact h.pure _

theorem accept_moves (h : Conduct host below may R) (d : SubclassDispatcher κ)
    (id : ConfigurationId) (source : Source κ) (m : MethodSignature) :
    Moves R (accept host below d id source m) := by
  simp only [accept]
  split
  · exact h.pure _
  · split
    · exact h.pure _
    · split
      · exact h.pure _
      · refine get_bind_moves fun w => ?_
        split
        · exact h.pure _
        · refine h.bind (chainFor_moves h id m _) fun found => ?_
          rcases found with e | chain
          · exact h.pure _
          · exact h.pure _

theorem callbackOf_moves (h : Conduct host below may R) (dispatcher : DispatcherId)
    (id : ConfigurationId) (source : Source κ) (m : MethodSignature) :
    Moves R (callbackOf host below dispatcher id source m) := by
  refine get_bind_moves fun w => ?_
  split
  · exact h.pure _
  · split
    · exact h.pure _
    · refine h.bind (accept_moves h _ id source m) fun accepted => ?_
      rcases accepted with e | callback
      · exact h.pure _
      · refine h.bind (h.trace _) fun _ => h.bind (h.change fun _ => ⟨rfl, rfl, rfl⟩) fun _ => ?_
        exact get_bind_moves fun w => h.pure _

theorem perform_moves (h : Conduct host below may R) (callback : Callback κ) (p : ProxyId)
    (proxy : Proxy) (c : Configuration κ) (source : Source κ) (m : MethodSignature)
    (arguments : List Value) :
    Moves R (perform host below callback p proxy c source m arguments) := by
  cases callback with
  | advised => exact invokeAdvised_moves h p proxy c source m arguments none
  | fixedChain chain => exact invokeAdvised_moves h p proxy c source m arguments (some chain)
  | invokeTarget => exact invokeAdvised_moves h p proxy c source m arguments (some [])
  | dispatchTarget =>
      exact dispatchTarget_has (comprises_moves h) (h.acquired c.source) p proxy m arguments
  | _ => exact h.map (identityAnswer_moves h p m arguments false false) _

theorem routeBySubclass_moves (h : Conduct host below may R) (dispatcher : DispatcherId)
    (p : ProxyId) (m : MethodSignature) (arguments : List Value) :
    Moves R (routeBySubclass host below dispatcher p m arguments) := by
  refine withProxy_moves h p m fun proxy c source => ?_
  refine h.bind (callbackOf_moves h dispatcher _ source m) fun chosen => ?_
  rcases chosen with e | callback
  · exact h.pure _
  · exact perform_moves h callback p proxy c source m arguments

theorem invoke_moves (h : Conduct host below may R) (p : ProxyId) (m : MethodSignature)
    (arguments : List Value) : Moves R (invoke host below p m arguments) := by
  refine get_bind_moves fun w => ?_
  split
  · exact h.pure _
  · refine h.bind (h.trace _) fun _ => ?_
    split
    · exact routeByContracts_moves h _ p m arguments
    · exact routeBySubclass_moves h _ p m arguments

end Calls

section Proxies

theorem freeze_moves (h : Conduct host below may R) (id : ConfigurationId) :
    Moves R (freeze id : Run κ σ ν Unit) := by
  refine get_bind_moves fun w => ?_
  split
  · exact h.pure _
  · split
    · exact h.pure _
    · exact h.bind (h.change fun _ => ⟨rfl, rfl, rfl⟩) fun _ => h.log _

theorem addDispatcher_moves (h : Conduct host below may R) (d : SubclassDispatcher κ) :
    Moves R (addDispatcher d : Run κ σ ν DispatcherId) :=
  h.exchange fun _ => ⟨rfl, rfl, rfl⟩

theorem newDispatcher_moves (h : Conduct host below may R) (id : ConfigurationId)
    (type : TypeInfo) : Moves R (newDispatcher host below id type) := by
  refine get_bind_moves fun w => ?_
  split
  · exact h.map (addDispatcher_moves h _) _
  · split
    · refine h.bind (precompute_moves h id) fun found => ?_
      rcases found with e | chains
      · exact h.pure _
      · exact h.bind (h.log _) fun _ => h.map (addDispatcher_moves h _) _
    · exact h.map (addDispatcher_moves h _) _

theorem preFilter_moves (h : Conduct host below may R) (f : ProxyFactory κ)
    (type : Option TypeInfo) :
    Moves R (preFilter f type : Run κ σ ν (Flags × List (Advisor κ))) := by
  simp only [preFilter]
  split
  · split
    · exact h.bind (h.asking _) fun _ => h.map (h.log _) _
    · exact h.map (h.log _) _
  · exact h.pure _

theorem chainFactoryOf_moves (h : Conduct host below may R) (f : ProxyFactory κ) :
    Moves R (chainFactoryOf f : Run κ σ ν (ChainFactory κ)) := by
  unfold chainFactoryOf
  split
  · exact h.pure _
  · exact h.pure _
  · exact h.map (h.logAll _) _

theorem chooseDispatch_moves (h : Conduct host below may R) (id : ConfigurationId)
    (c : Configuration κ) (type : Option TypeInfo) :
    Moves R (chooseDispatch host below id c type) := by
  simp only [chooseDispatch]
  split
  · split
    · exact h.pure _
    · refine h.bind (newDispatcher_moves h id _) fun made => ?_
      rcases made with e | dispatcher
      · exact h.pure _
      · exact h.pure _
  · exact h.pure _

theorem prepare_moves (h : Conduct host below may R) (f : ProxyFactory κ) (id : SourceId)
    (type : Option TypeInfo) :
    Moves R (prepare f id type : Run κ σ ν (ConfigurationId × Configuration κ)) := by
  refine h.bind (preFilter_moves h f type) fun filtered => ?_
  refine h.bind (chainFactoryOf_moves h f) fun chainFactory => ?_
  refine h.bind (h.exchange fun _ => ⟨rfl, rfl, rfl⟩) fun configuration => ?_
  refine h.bind (h.logAll _) fun _ => ?_
  dsimp only
  split
  · exact h.map (freeze_moves h configuration) _
  · exact h.pure _

theorem place_moves (h : Conduct host below may R) (id : ConfigurationId) (c : Configuration κ)
    (source : Source κ) : Moves R (place host below id c source) := by
  refine h.bind (chooseDispatch_moves h id c source.type) fun chosen => ?_
  rcases chosen with e | ⟨dispatch, types⟩
  · exact h.pure _
  · exact h.bind (h.exchange fun _ => ⟨rfl, rfl, rfl⟩) fun p => h.map (h.log _) _

theorem makeProxyOver_moves (h : Conduct host below may R) (f : ProxyFactory κ) (id : SourceId) :
    Moves R (makeProxyOver host below f id) := by
  refine get_bind_moves fun w => ?_
  split
  · exact h.pure _
  · rw [makeProxyFor_eq]
    split
    · exact h.pure _
    · exact h.bind (prepare_moves h f id _) fun made => place_moves h made.1 made.2 _

theorem newSource_moves (h : Conduct host below may R) (source : Source κ) :
    Moves R (newSource source : Run κ σ ν SourceId) := by
  intro w a w' hrun
  cases hrun
  exact h.madeSource w source

theorem makeProxy_moves (h : Conduct host below may R) (f : ProxyFactory κ) :
    Moves R (makeProxy host below f) := by
  rcases hsource : f.source with _ | id
  · rw [makeProxy_of_none hsource]
    exact h.bind (newSource_moves h _) (makeProxyOver_moves h f)
  · rw [makeProxy_of_source hsource]
    exact makeProxyOver_moves h f id

end Proxies

section Answers

theorem newTarget_moves (h : Conduct host below may R) (type : TypeInfo) (code : κ) :
    Moves R (newTarget type code : Run κ σ ν TargetId) := by
  intro w a w' hrun
  cases hrun
  refine h.aside rfl ?_ rfl
  rw [Array.size_push]
  exact Nat.le_succ _

theorem changeConfiguration_moves (h : Conduct host below may R) (id : ConfigurationId)
    (change : Configuration κ → Except AopError (α × Configuration κ)) :
    Moves R (changeConfiguration id change : Run κ σ ν (Except AopError α)) := by
  refine get_bind_moves fun w => ?_
  split
  · exact h.pure _
  · split
    · exact h.pure _
    · exact h.bind (h.change fun _ => ⟨rfl, rfl, rfl⟩) fun _ => h.pure _

theorem insertAdvisor_moves (h : Conduct host below may R) (id : ConfigurationId)
    (position : Option Nat) (a : Advisor κ) :
    Moves R (insertAdvisor id position a : Run κ σ ν _) := by
  refine h.bind (changeConfiguration_moves h id _) fun done => ?_
  rcases done with e | line
  · exact h.pure _
  · exact h.map (h.log _) _

/-- Answering moves worlds along the relation if exposing does what user code may have exposed. -/
theorem answerWith_moves (h : Conduct host below may R)
    (hexpose : ∀ value, may (.expose value) → Moves R (expose value : Run κ σ ν _))
    (r : Request κ σ ν) (hr : may r) : Moves R (answerWith host below r) := by
  cases r with
  | remember memory => exact h.change fun _ => ⟨rfl, rfl, rfl⟩
  | note content => exact h.record _
  | publish lines => exact h.logAll lines
  | newTarget type code => exact newTarget_moves h type code
  | newSource source => exact newSource_moves h source
  | newCache => exact h.exchange fun _ => ⟨rfl, rfl, rfl⟩
  | makeProxy factory => exact makeProxy_moves h factory
  | invoke id m arguments => exact invoke_moves h id m arguments
  | addInterface id type => exact changeConfiguration_moves h id _
  | insertAdvisor id position a => exact insertAdvisor_moves h id position a
  | removeAdvisor id position => exact changeConfiguration_moves h id _
  | freeze id => exact freeze_moves h id
  | chainFor id m target => exact chainFor_moves h id m target
  | precompute id => exact precompute_moves h id
  | newDispatcher id type => exact newDispatcher_moves h id type
  | routeBySubclass d id m arguments => exact routeBySubclass_moves h d id m arguments
  | routeByContracts d id m arguments => exact routeByContracts_moves h d id m arguments
  | expose value => exact hexpose value hr
  | acquire id => exact h.acquired id
  | release id target => exact h.released id target hr
  | askMatcher matcher m target introductions => exact h.asking _
  | canApply a target methods introductions => exact h.asking _
  | findApplicable advisors target methods => exact h.asking _
  | buildChain registry advisors preFiltered m target => exact buildFrom_moves h _ _ _ _ _
  | runJoinPoint jp => exact runJoinPoint_has (comprises_moves h) jp
  | cachedChain id m target builder =>
      exact cachedOr_moves h _ m target (h.code (h.asks.builder builder))
  | storeChain id m target chain => exact h.change fun _ => ⟨rfl, rfl, rfl⟩
  | clearCache id => exact h.change fun _ => ⟨rfl, rfl, rfl⟩
  | _ => exact get_bind_moves fun w => h.pure _

end Answers

end Run

end Weaving
