import Weaving.Program
import Weaving.World

/-
What user code may ask of the engine, and what each piece of user code is.

There are three sets of requests.  `Request` can be made anywhere.  Code that runs at a call can also
look at the call and change its arguments and attributes (`JoinPointRequest`), and around advice can
proceed (`AroundRequest`).  A `Host` says for each name of user code which program it is.
-/
namespace Weaving

/-- What a proxy is made from. -/
structure ProxyFactory (κ : Type) where
  /-- The flags. -/
  flags : Flags := {}
  /-- Where targets come from. -/
  source : Option SourceId := none
  /-- The contracts to expose. -/
  interfaces : List TypeInfo := []
  /-- The advisors, in order. -/
  advisors : List (Advisor κ) := []
  /-- The methods declared for the target type. -/
  methods : List MethodSignature := []
  /-- The registry of adapters, if not a new standard one. -/
  registry : Option (AdapterRegistry κ) := none
  /-- How chains are built, if not by a registry. -/
  chainFactory : Option κ := none
  /-- Whether to leave out the advisors that cannot apply to the target type. -/
  preFilter : Bool := false

/-- A request that user code may make anywhere. -/
inductive Request (κ σ ν : Type) where
  /-- What does the user's code remember? -/
  | recall
  /-- Remember this. -/
  | remember (memory : σ)
  /-- Note this. -/
  | note (content : ν)
  /-- Log the lines of an operation. -/
  | publish (lines : List LogLine)
  /-- Make a target object. -/
  | newTarget (type : TypeInfo) (code : κ)
  /-- Make a target source. -/
  | newSource (source : Source κ)
  /-- Make a cache. -/
  | newCache
  /-- What is this target? -/
  | target (id : TargetId)
  /-- What is this source? -/
  | source (id : SourceId)
  /-- What is this proxy? -/
  | proxy (id : ProxyId)
  /-- What is this configuration? -/
  | configuration (id : ConfigurationId)
  /-- What is this dispatcher? -/
  | dispatcher (id : DispatcherId)
  /-- What is in this cache? -/
  | cache (id : CacheId)
  /-- Does the proxy equal the object? -/
  | proxyEquals (id : ProxyId) (other : Option Value)
  /-- Are the two configurations equal as proxies? -/
  | configurationsEqual (left right : ConfigurationId)
  /-- The hash of the proxy. -/
  | proxyHash (id : ProxyId)
  /-- Make a proxy. -/
  | makeProxy (factory : ProxyFactory κ)
  /-- Call a method on a proxy. -/
  | invoke (id : ProxyId) (method : MethodSignature) (arguments : List Value)
  /-- Expose one more contract. -/
  | addInterface (id : ConfigurationId) (type : TypeInfo)
  /-- Put an advisor at a position, or at the end. -/
  | insertAdvisor (id : ConfigurationId) (position : Option Nat) (advisor : Advisor κ)
  /-- Take out the advisor at a position. -/
  | removeAdvisor (id : ConfigurationId) (position : Nat)
  /-- Freeze a configuration. -/
  | freeze (id : ConfigurationId)
  /-- The chain of a method on a target type. -/
  | chainFor (id : ConfigurationId) (method : MethodSignature) (target : Option TypeInfo)
  /-- The chains of the declared methods. -/
  | precompute (id : ConfigurationId)
  /-- Make a dispatcher of the subclass strategy. -/
  | newDispatcher (id : ConfigurationId) (targetType : TypeInfo)
  /-- Route a call on a proxy by a dispatcher of the subclass strategy. -/
  | routeBySubclass (dispatcher : DispatcherId) (id : ProxyId) (method : MethodSignature)
      (arguments : List Value)
  /-- Route a call on a proxy by contracts. -/
  | routeByContracts (dispatcher : ContractDispatcher) (id : ProxyId) (method : MethodSignature)
      (arguments : List Value)
  /-- The object exposed as the current proxy. -/
  | current
  /-- Expose an object, or none; the answer is what was exposed before. -/
  | expose (value : Option Value)
  /-- Take a target from a source. -/
  | acquire (id : SourceId)
  /-- Give a target back to a source. -/
  | release (id : SourceId) (target : TargetId)
  /-- Ask a matcher about a method. -/
  | askMatcher (matcher : MethodMatcher) (method : MethodSignature) (target : TypeInfo)
      (introductions : Bool)
  /-- Can an advisor matter for a type with these methods? -/
  | canApply (advisor : Advisor κ) (target : TypeInfo) (methods : List MethodSignature)
      (introductions : Bool)
  /-- The advisors that can matter for a type with these methods. -/
  | findApplicable (advisors : List (Advisor κ)) (target : TypeInfo) (methods : List MethodSignature)
  /-- Build a chain from advisors. -/
  | buildChain (registry : AdapterRegistry κ) (advisors : List (Advisor κ)) (preFiltered : Bool)
      (method : MethodSignature) (target : Option TypeInfo)
  /-- Run a call through its chain; the answer includes the call afterwards. -/
  | runJoinPoint (joinPoint : JoinPoint κ)
  /-- The chain remembered for a method, built by user code if there is none. -/
  | cachedChain (id : CacheId) (method : MethodSignature) (target : Option TypeInfo) (builder : κ)
  /-- Remember a chain for a method. -/
  | storeChain (id : CacheId) (method : MethodSignature) (target : Option TypeInfo) (chain : Chain κ)
  /-- Forget all chains. -/
  | clearCache (id : CacheId)

/-- The answers to a request. -/
@[reducible] def Request.Answer {κ σ ν : Type} : Request κ σ ν → Type
  | .recall => σ
  | .remember _ => Unit
  | .note _ => Unit
  | .publish _ => Unit
  | .newTarget _ _ => TargetId
  | .newSource _ => SourceId
  | .newCache => CacheId
  | .target _ => Option (Target κ)
  | .source _ => Option (Source κ)
  | .proxy _ => Option Proxy
  | .configuration _ => Option (Configuration κ)
  | .dispatcher _ => Option (SubclassDispatcher κ)
  | .cache _ => Option (ChainCache κ)
  | .proxyEquals _ _ => Bool
  | .configurationsEqual _ _ => Bool
  | .proxyHash _ => UInt64
  | .makeProxy _ => Except AopError ProxyId
  | .invoke _ _ _ => Result
  | .addInterface _ _ => Except AopError Unit
  | .insertAdvisor _ _ _ => Except AopError Unit
  | .removeAdvisor _ _ => Except AopError (Advisor κ)
  | .freeze _ => Unit
  | .chainFor _ _ _ => Except AopError (Chain κ)
  | .precompute _ => Except AopError (List (MethodSignature × Chain κ))
  | .newDispatcher _ _ => Except AopError DispatcherId
  | .routeBySubclass _ _ _ _ => Result
  | .routeByContracts _ _ _ _ => Result
  | .current => Option Value
  | .expose _ => Option Value
  | .acquire _ => Except AopError (Option TargetId)
  | .release _ _ => Except AopError Unit
  | .askMatcher _ _ _ _ => Bool
  | .canApply _ _ _ _ => Bool
  | .findApplicable _ _ _ => List (Advisor κ)
  | .buildChain _ _ _ _ _ => Except AopError (Chain κ)
  | .runJoinPoint _ => Result × JoinPoint κ
  | .cachedChain _ _ _ _ => Except AopError (Chain κ)
  | .storeChain _ _ _ _ => Unit
  | .clearCache _ => Unit

/-- A request that user code may make at a call.  Two things that code can do there are left out: to
run the whole chain once more from its first position, and to hold on to the list of arguments while
it is replaced, which ends the program. -/
inductive JoinPointRequest (κ σ ν : Type) where
  /-- A request that may be made anywhere. -/
  | outer (request : Request κ σ ν)
  /-- The call as it is now. -/
  | view
  /-- Replace the arguments. -/
  | setArguments (arguments : List Value)
  /-- Keep an object beside the call. -/
  | setAttribute (name : String) (value : Value)

/-- The answers to a request at a call. -/
@[reducible] def JoinPointRequest.Answer {κ σ ν : Type} : JoinPointRequest κ σ ν → Type
  | .outer request => request.Answer
  | .view => JoinPoint κ
  | .setArguments _ => Unit
  | .setAttribute _ _ => Unit

/-- A request that around advice may make.  What is left out at calls is left out here too, so the rest
of the chain is all that advice can run. -/
inductive AroundRequest (κ σ ν : Type) where
  /-- A request that may be made at a call. -/
  | inner (request : JoinPointRequest κ σ ν)
  /-- Run the rest of the chain. -/
  | proceed
  /-- The position in the chain from which the rest would run. -/
  | position

/-- The answers to a request of around advice. -/
@[reducible] def AroundRequest.Answer {κ σ ν : Type} : AroundRequest κ σ ν → Type
  | .inner request => request.Answer
  | .proceed => Result
  | .position => Nat

/-- Code that may run anywhere. -/
abbrev Code (κ σ ν α : Type) := Program (Request κ σ ν) Request.Answer α

/-- Code that runs at a call. -/
abbrev JoinPointCode (κ σ ν α : Type) := Program (JoinPointRequest κ σ ν) JoinPointRequest.Answer α

/-- The code of around advice. -/
abbrev AroundCode (κ σ ν : Type) := Program (AroundRequest κ σ ν) AroundRequest.Answer Result

/-- The programs behind the names of user code, by the place where the code is used. -/
structure Host (κ σ ν : Type) where
  /-- Around advice. -/
  around : κ → AroundCode κ σ ν
  /-- Before advice. -/
  before : κ → JoinPointCode κ σ ν (Except AopError Unit)
  /-- After-returning advice, given the value returned. -/
  afterReturning : κ → Option Value → JoinPointCode κ σ ν (Except AopError Unit)
  /-- After-throwing advice, given the error. -/
  afterThrowing : κ → AopError → JoinPointCode κ σ ν (Except AopError Unit)
  /-- After advice. -/
  after : κ → JoinPointCode κ σ ν (Except AopError Unit)
  /-- The methods of a target, given the target itself, the method and the arguments. -/
  target : κ → TargetId → MethodSignature → List Value → Code κ σ ν Result
  /-- The making of a target for a source. -/
  make : κ → Code κ σ ν (Except AopError TargetId)
  /-- Taking a target from a source of the user's. -/
  acquire : κ → Code κ σ ν (Except AopError (Option TargetId))
  /-- Giving a target back to a source of the user's. -/
  release : κ → TargetId → Code κ σ ν (Except AopError Unit)
  /-- Building a chain from advisors. -/
  chain : κ → List (Advisor κ) → Bool → MethodSignature → Option TypeInfo →
    Code κ σ ν (Except AopError (Chain κ))
  /-- Building a chain for a cache. -/
  builder : κ → Code κ σ ν (Except AopError (Chain κ))

/-- How the requests of user code are answered. -/
abbrev Handler (κ σ ν : Type) := (r : Request κ σ ν) → Run κ σ ν r.Answer

end Weaving
