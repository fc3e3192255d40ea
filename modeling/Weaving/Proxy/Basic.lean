import Weaving.Proxy.Configuration

/-
Proxies.  A proxy has a configuration, a way to route calls, and the types it may stand for, which
are settled when it is made.  A proxy of the contract strategy routes by the contracts; one of the
subclass strategy chooses a callback for each method on its first call and keeps to it.
-/
namespace Weaving

/-- The identity of a configuration. -/
abbrev ConfigurationId := Nat

/-- The identity of a dispatcher of the subclass strategy. -/
abbrev DispatcherId := Nat

/-- How calls reach a proxy. -/
inductive Strategy where
  /-- The proxy implements a set of contracts. -/
  | contracts
  /-- The proxy is a subclass of the target's type. -/
  | subclass
  deriving DecidableEq

/-- The name of a strategy. -/
def Strategy.name : Strategy → String
  | .contracts => "Interface"
  | .subclass => "Subclass"

/-- Routing by contracts: which identity methods are left to the target. -/
structure ContractDispatcher where
  /-- A contract has an equality of its own. -/
  equalsDefined : Bool
  /-- A contract has a hash of its own. -/
  hashDefined : Bool
  deriving DecidableEq

namespace ContractDispatcher

/-- The routing for a list of contracts. -/
def of (interfaces : List TypeInfo) : ContractDispatcher :=
  ⟨interfaces.any (·.definesEquals), interfaces.any (·.definesHash)⟩

/-- The one-line description of a routing by contracts. -/
def inspect (d : ContractDispatcher) : String :=
  Inspect.record "InterfaceDispatch"
    [("equals_defined", Inspect.bool d.equalsDefined), ("hash_defined", Inspect.bool d.hashDefined)]

end ContractDispatcher

/-- What a subclass proxy does with the calls of a method. -/
inductive Callback (κ : Type) where
  /-- The full course of a call. -/
  | advised
  /-- The full course with a chain known beforehand. -/
  | fixedChain (chain : Chain κ)
  /-- The full course without interceptors. -/
  | invokeTarget
  /-- The static target at once. -/
  | dispatchTarget
  /-- Nothing. -/
  | noOverride
  /-- Equality of proxies. -/
  | proxyEquals
  /-- The hash of the proxy. -/
  | proxyHash

namespace Callback

variable {κ : Type}

/-- The one-word description of a callback. -/
def inspect : Callback κ → String
  | .advised => "AopProxy"
  | .fixedChain chain => Inspect.tuple "FixedChain" [toString chain.length]
  | .invokeTarget => "InvokeTarget"
  | .dispatchTarget => "DispatchTarget"
  | .noOverride => "NoOverride"
  | .proxyEquals => "InvokeEquals"
  | .proxyHash => "InvokeHashCode"

end Callback

/-- Routing by callbacks, for the subclass strategy. -/
structure SubclassDispatcher (κ : Type) where
  /-- The target's type. -/
  targetType : TypeInfo
  /-- The chains known beforehand, by method. -/
  fixedChains : List (MethodKey × Chain κ)
  /-- The callbacks chosen so far, by method. -/
  callbacks : List (MethodKey × Callback κ)

namespace SubclassDispatcher

variable {κ : Type}

/-- The callback chosen for a method. -/
def callback? (d : SubclassDispatcher κ) (m : MethodSignature) : Option (Callback κ) :=
  Assoc.get? m.key d.callbacks

/-- Keeps the callback of a method unless one has been chosen. -/
def remember (d : SubclassDispatcher κ) (m : MethodSignature) (callback : Callback κ) :
    SubclassDispatcher κ :=
  { d with callbacks := Assoc.putNew m.key callback d.callbacks }

/-- The one-line description of a routing by callbacks. -/
def inspect (d : SubclassDispatcher κ) : String :=
  Inspect.record "SubclassDispatch"
    [("target_type", Inspect.quoted d.targetType.name),
     ("fixed_chains", toString d.fixedChains.length), ("callbacks", toString d.callbacks.length)]

end SubclassDispatcher

/-- How a proxy routes calls. -/
inductive Dispatch where
  /-- By contracts. -/
  | contracts (dispatcher : ContractDispatcher)
  /-- By the callbacks of a dispatcher. -/
  | subclass (dispatcher : DispatcherId)
  deriving DecidableEq

/-- A proxy. -/
structure Proxy where
  /-- Its configuration. -/
  configuration : ConfigurationId
  /-- How it routes calls. -/
  dispatch : Dispatch
  /-- The types it may stand for, besides the root type. -/
  proxiedTypes : List TypeInfo

namespace Proxy

/-- The strategy of a proxy. -/
def strategy (p : Proxy) : Strategy :=
  match p.dispatch with
  | .contracts _ => .contracts
  | .subclass _ => .subclass

/-- Whether a proxy may stand where a type is wanted. -/
def isInstanceOf (p : Proxy) (type : TypeInfo) : Bool :=
  type.isRoot || p.proxiedTypes.any (·.isAssignableTo type)

/-- Whether a target returned from a method is replaced by the proxy. -/
def standsInFor (p : Proxy) (m : MethodSignature) : Bool :=
  match m.returnType with
  | .reference type => !type.isRoot && !m.declaringType.isRawAccess && p.isInstanceOf type
  | _ => false

/-- The one-line description of a proxy, given its configuration and its source's name. -/
def inspect {κ : Type} (p : Proxy) (c : Configuration κ) (sourceName : String) : String :=
  Inspect.record "AopProxy"
    [("strategy", p.strategy.name), ("proxied_types", Inspect.quotedList (p.proxiedTypes.map (·.name))),
     ("advised", c.inspect sourceName)]

end Proxy

end Weaving
