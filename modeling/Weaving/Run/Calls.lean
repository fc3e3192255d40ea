import Weaving.Proxy.Equality
import Weaving.Run.Chains
import Weaving.Run.JoinPoints

/-
Calls on proxies.

`invokeAdvised` is the full course of a call: the proxy is exposed if it is to be, the chain is
settled, a target is taken from the source, the chain runs, the returned value is looked at, the
target is given back, and what was exposed before is exposed again.  Around it stand the two
strategies: routing by contracts, and routing by a callback that is chosen on a method's first call.
-/
namespace Weaving.Run

variable {κ σ ν : Type} (host : Host κ σ ν) (below : Handler κ σ ν)

/-- Exposes an object, or none; the answer is what was exposed before. -/
def expose (value : Option Value) : Run κ σ ν (Option Value) := do
  let w ← get
  set { w with current := value }
  return w.current

/-- Runs something while a proxy is exposed, if it is to be, and then exposes again what was before.
Proxies stay for good, so the case is left out that one is gone by the time it is to be exposed, when
nothing would be exposed in its place. -/
def whileExposed {α : Type} (exposed : Bool) (p : ProxyId) (body : Run κ σ ν α) : Run κ σ ν α := do
  if exposed then
    let previous ← expose (some (.proxy p))
    let result ← body
    let _ ← expose previous
    return result
  else body

/--
Looks at a returned value: the proxy stands in for its own target where the return type allows it,
and a basic return type does not allow a missing value.  Left out is a proxy that is gone by then,
for which the target itself would be returned.
-/
def processReturn (p : ProxyId) (proxy : Proxy) (m : MethodSignature) (target : Option TargetId) :
    Option Value → Run κ σ ν Result
  | some value => do
    if target.map Value.target = some value && proxy.standsInFor m then
      trace ("Replacing target returned from " ++ m.text ++ " with its proxy")
      return .ok (some (.proxy p))
    else return .ok (some value)
  | none =>
    match m.returnType with
    | .primitive name => return .error (.invocation m.text name)
    | _ => return .ok none

/-- Looks at the value of a call that succeeded. -/
def finishCall (p : ProxyId) (proxy : Proxy) (m : MethodSignature) (target : Option TargetId) :
    Result → Run κ σ ν Result
  | .ok value => processReturn p proxy m target value
  | .error e => return .error e

/-- Reaches a target without any chain. -/
def reachDirectly (call : Nat) (target : TargetId) (m : MethodSignature) (arguments : List Value) :
    Run κ σ ν Result := do
  record (.act (.reached call target arguments none))
  return translateUndeclared m (← callTarget host below target m arguments)

/-- Runs the chain of a call, or reaches the target at once if the chain is empty. -/
def runChain (call : Nat) (p : ProxyId) (m : MethodSignature) (arguments : List Value)
    (target : Option TargetId) (targetType : Option TypeInfo) (chain : Chain κ) :
    Run κ σ ν Result := do
  if chain.isEmpty then
    trace ("No interceptors for " ++ m.text ++ ", invoking target directly")
    match target with
    | some target => reachDirectly host below call target m arguments
    | none => return .error (.noTarget m.text)
  else
    let jp := { JoinPoint.opened m arguments target targetType chain (some p) with call := call }
    return (← (AtCall.invoke host below).run jp).1

/-- Takes a target from a source for a call. -/
def acquireFor (call : Nat) (source : SourceId) : Run κ σ ν (Except AopError (Option TargetId)) := do
  match ← acquire host below source with
  | .ok target =>
    record (.act (.acquired call source target))
    return .ok target
  | .error e =>
    record (.act (.refused call source))
    return .error e

/-- Gives the target of a call back; a failure counts only if the call itself succeeded. -/
def releaseFor (call : Nat) (id : SourceId) (source : Source κ) (target : Option TargetId)
    (m : MethodSignature) (outcome : Result) : Run κ σ ν Result := do
  match target with
  | none => return outcome
  | some target =>
    if source.isStatic then return outcome
    else
      let released ← release host below id target
      record (.act (.released call id target released.isOk))
      match released with
      | .ok () => return outcome
      | .error e =>
        log ⟨.error, "Failed to release target from " ++ source.name ++ " after " ++ m.text ++ ": "
          ++ e.display, []⟩
        match outcome with
        | .ok _ => return .error e
        | .error own => return .error own

/-- The course of a call whose chain is settled. -/
def runSettled (p : ProxyId) (proxy : Proxy) (id : SourceId) (source : Source κ) (m : MethodSignature)
    (arguments : List Value) (chain : Chain κ) : Run κ σ ν Result := do
  let call ← beginCall
  match ← acquireFor host below call id with
  | .error e => return .error e
  | .ok target =>
    let outcome ← runChain host below call p m arguments target source.type chain
    releaseFor host below call id source target m (← finishCall p proxy m target outcome)

/-- The full course of a call on a proxy; a chain known beforehand is not looked up. -/
def invokeAdvised (p : ProxyId) (proxy : Proxy) (c : Configuration κ) (source : Source κ)
    (m : MethodSignature) (arguments : List Value) (fixed : Option (Chain κ)) :
    Run κ σ ν Result :=
  whileExposed c.flags.exposeProxy p do
    match fixed with
    | some chain => runSettled host below p proxy c.source source m arguments chain
    | none =>
      match ← chainFor host below proxy.configuration m source.type with
      | .error e => return .error e
      | .ok chain => runSettled host below p proxy c.source source m arguments chain

/-- The answer of the proxy itself to an identity method, unless it is left to the target. -/
def identityAnswer (p : ProxyId) (m : MethodSignature) (arguments : List Value)
    (equalsDefined hashDefined : Bool) : Run κ σ ν (Option Result) := do
  match m.kind with
  | .equals =>
    if equalsDefined then return none
    else return some (.ok (some (.bool ((← get).proxyEquals p arguments.head?))))
  | .hashCode =>
    if hashDefined then return none
    else return some (.ok (some (.word ((← get).proxyHash p))))
  | .finalize =>
    trace "Ignoring finalize on proxy"
    return some (.ok none)
  | .regular => return none

/-- Finds what a call on a proxy needs to know about it. -/
def withProxy (p : ProxyId) (m : MethodSignature)
    (body : Proxy → Configuration κ → Source κ → Run κ σ ν Result) : Run κ σ ν Result := do
  let w ← get
  match w.proxies[p]? with
  | none => return .error (.noTarget m.text)
  | some proxy =>
    match w.configurations[proxy.configuration]? with
    | none => return .error (.noTarget m.text)
    | some c =>
      match w.sources[c.source]? with
      | none => return .error (.noTarget m.text)
      | some source => body proxy c source

/-- Routes a call by contracts: methods of other contracts are refused. -/
def routeByContracts (d : ContractDispatcher) (p : ProxyId) (m : MethodSignature)
    (arguments : List Value) : Run κ σ ν Result :=
  withProxy p m fun proxy c source => do
    match ← identityAnswer p m arguments d.equalsDefined d.hashDefined with
    | some result => return result
    | none =>
      if m.kind = .regular && !m.declaringType.isRoot && !proxy.isInstanceOf m.declaringType then
        return .error (.unsupportedMethod m.text)
      else invokeAdvised host below p proxy c source m arguments none

/-- Whether a method may return the target of a static source of this type. -/
def mayReturnTarget (targetType : TypeInfo) (m : MethodSignature) : Bool :=
  match m.returnType with
  | .reference type => targetType.isAssignableTo type
  | .any => true
  | .unit => false
  | .primitive _ => false

/-- The callback for a method whose chain is known. -/
def callbackFor (d : SubclassDispatcher κ) (c : Configuration κ) (isStatic : Bool)
    (m : MethodSignature) (chain : Chain κ) : Callback κ :=
  if !chain.isEmpty || !c.frozen then
    if c.flags.exposeProxy then .advised
    else if c.frozen && isStatic then
      match Assoc.get? m.key d.fixedChains with
      | some fixed => .fixedChain fixed
      | none => .advised
    else .advised
  else if c.flags.exposeProxy || !isStatic then .invokeTarget
  else if mayReturnTarget d.targetType m then .invokeTarget
  else .dispatchTarget

/-- Chooses the callback of a method. -/
def accept (d : SubclassDispatcher κ) (id : ConfigurationId) (source : Source κ)
    (m : MethodSignature) : Run κ σ ν (Except AopError (Callback κ)) := do
  if m.kind = .finalize then return .ok .noOverride
  else if m.kind = .equals && !d.targetType.definesEquals then return .ok .proxyEquals
  else if m.kind = .hashCode && !d.targetType.definesHash then return .ok .proxyHash
  else
    match (← get).configurations[id]? with
    | none => return .ok .advised
    | some c =>
      match ← chainFor host below id m (some d.targetType) with
      | .error e => return .error e
      | .ok chain => return .ok (callbackFor d c source.isStatic m chain)

/-- The callback of a method, chosen if this is its first call. -/
def callbackOf (dispatcher : DispatcherId) (id : ConfigurationId) (source : Source κ)
    (m : MethodSignature) : Run κ σ ν (Except AopError (Callback κ)) := do
  match (← get).dispatchers[dispatcher]? with
  | none => return .ok .advised
  | some d =>
    match d.callback? m with
    | some callback => return .ok callback
    | none =>
      match ← accept host below d id source m with
      | .error e => return .error e
      | .ok callback =>
        trace ("Selected callback " ++ callback.inspect ++ " for " ++ m.text)
        modify (·.mapDispatcher dispatcher (·.remember m callback))
        return .ok ((((← get).dispatchers[dispatcher]?).bind (·.callback? m)).getD callback)

/-- Reaches a static target at once. -/
def dispatchTarget (p : ProxyId) (proxy : Proxy) (source : SourceId) (m : MethodSignature)
    (arguments : List Value) : Run κ σ ν Result := do
  let call ← beginCall
  match ← acquireFor host below call source with
  | .error e => return .error e
  | .ok none => return .error (.noTarget m.text)
  | .ok (some target) =>
    finishCall p proxy m (some target) (← reachDirectly host below call target m arguments)

/-- Does with a call what a callback says. -/
def perform (callback : Callback κ) (p : ProxyId) (proxy : Proxy) (c : Configuration κ)
    (source : Source κ) (m : MethodSignature) (arguments : List Value) : Run κ σ ν Result := do
  match callback with
  | .noOverride | .proxyEquals | .proxyHash =>
    return (← identityAnswer p m arguments false false).getD (.ok none)
  | .advised => invokeAdvised host below p proxy c source m arguments none
  | .fixedChain chain => invokeAdvised host below p proxy c source m arguments (some chain)
  | .invokeTarget => invokeAdvised host below p proxy c source m arguments (some [])
  | .dispatchTarget => dispatchTarget host below p proxy c.source m arguments

/-- Routes a call by the callback of its method. -/
def routeBySubclass (dispatcher : DispatcherId) (p : ProxyId) (m : MethodSignature)
    (arguments : List Value) : Run κ σ ν Result :=
  withProxy p m fun proxy c source => do
    match ← callbackOf host below dispatcher proxy.configuration source m with
    | .error e => return .error e
    | .ok callback => perform host below callback p proxy c source m arguments

/-- Calls a method on a proxy. -/
def invoke (p : ProxyId) (m : MethodSignature) (arguments : List Value) : Run κ σ ν Result := do
  match (← get).proxies[p]? with
  | none => return .error (.noTarget m.text)
  | some proxy =>
    trace ("Proxy (" ++ proxy.strategy.name ++ ") dispatching " ++ m.text)
    match proxy.dispatch with
    | .contracts d => routeByContracts host below d p m arguments
    | .subclass d => routeBySubclass host below d p m arguments

end Weaving.Run
