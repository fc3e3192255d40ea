import Weaving.Run.Calls

/-
Making proxies.  A factory's advisors are filtered first if it says so; then the configuration is
put together, the strategy is chosen from it, and the configuration is frozen if its flags say so.
-/
namespace Weaving

variable {κ σ ν : Type}

namespace ProxyFactory

/-- A factory with one more contract to expose, unless it is there already. -/
def expose (f : ProxyFactory κ) (type : TypeInfo) : ProxyFactory κ :=
  { f with interfaces := TypeInfo.pushNew f.interfaces type }

/-- A factory for the targets of a source whose type is known: it exposes the type's contracts. -/
def forTarget (source : SourceId) (type : TypeInfo) : ProxyFactory κ :=
  { source := some source, interfaces := type.contracts }

/-- The configuration that a factory's advisors lead to, contracts of introductions included. -/
def configure (f : ProxyFactory κ) (flags : Flags) (source : SourceId) (targetType : Option TypeInfo)
    (advisors : List (Advisor κ)) (chainFactory : ChainFactory κ) : Configuration κ :=
  let bare := (Configuration.initial flags source f.methods chainFactory).exposeAll f.interfaces
  let advised := { bare.exposeAll (advisors.flatMap (·.interfaces)) with advisors := advisors }
  match targetType with
  | some type =>
    if type.contract && advised.interfaces.isEmpty then advised.exposeAll [type] else advised
  | none => advised

/-- The log lines that tell of a list of advisors added one by one. -/
def advisorLines (advisors : List (Advisor κ)) : List LogLine :=
  advisors.mapIdx fun position a => Configuration.insertionLine a position

end ProxyFactory

/-- Whether a proxy with this configuration stands for the target's own type. -/
def Configuration.wantsSubclass (c : Configuration κ) (targetType : Option TypeInfo) : Bool :=
  !((targetType.map (·.contract)).getD false) &&
    (c.flags.proxyTargetClass || c.flags.optimize || c.interfaces.isEmpty)

namespace Run

variable (host : Host κ σ ν) (below : Handler κ σ ν)

/-- Adds a target object to the world. -/
def newTarget (type : TypeInfo) (code : κ) : Run κ σ ν TargetId := do
  let w ← get
  set { w with targets := w.targets.push ⟨type, code⟩ }
  return w.targets.size

/-- Adds a target source to the world. -/
def newSource (source : Source κ) : Run κ σ ν SourceId := do
  let w ← get
  set { w with sources := w.sources.push source }
  return w.sources.size

/-- Adds a cache to the world. -/
def newCache : Run κ σ ν CacheId := do
  let w ← get
  set { w with caches := w.caches.push .empty }
  return w.caches.size

/-- Adds a configuration to the world. -/
def newConfiguration (c : Configuration κ) : Run κ σ ν ConfigurationId := do
  let w ← get
  set { w with configurations := w.configurations.push c }
  return w.configurations.size

/-- Adds a dispatcher to the world. -/
def addDispatcher (d : SubclassDispatcher κ) : Run κ σ ν DispatcherId := do
  let w ← get
  set { w with dispatchers := w.dispatchers.push d }
  return w.dispatchers.size

/-- Adds a proxy to the world. -/
def addProxy (p : Proxy) : Run κ σ ν ProxyId := do
  let w ← get
  set { w with proxies := w.proxies.push p }
  return w.proxies.size

/-- Freezes a configuration. -/
def freeze (id : ConfigurationId) : Run κ σ ν Unit := do
  match (← get).configurations[id]? with
  | none => return ()
  | some c =>
    if c.frozen then return ()
    else
      modify (·.mapConfiguration id Configuration.freeze)
      log c.freezingLine

/-- The chains of methods by key; of equal methods the last one counts. -/
def chainsByKey (chains : List (MethodSignature × Chain κ)) : List (MethodKey × Chain κ) :=
  chains.foldl (fun known entry => Assoc.put entry.1.key entry.2 known) []

/-- Makes a dispatcher of the subclass strategy; with a frozen static configuration its chains are settled. -/
def newDispatcher (id : ConfigurationId) (targetType : TypeInfo) :
    Run κ σ ν (Except AopError DispatcherId) := do
  let w ← get
  match w.configurations[id]? with
  | none => return .ok (← addDispatcher ⟨targetType, [], []⟩)
  | some c =>
    if c.frozen && ((w.sources[c.source]?).map Source.isStatic).getD false then
      match ← precompute host below id with
      | .error e => return .error e
      | .ok chains =>
        let fixed := chainsByKey chains
        log ⟨.debug, "Precomputed " ++ toString fixed.length ++ " fixed chain(s) for subclass proxy of "
          ++ targetType.name, []⟩
        return .ok (← addDispatcher ⟨targetType, fixed, []⟩)
    else return .ok (← addDispatcher ⟨targetType, [], []⟩)

/-- The flags and advisors of a factory, without the advisors that cannot apply if it says so. -/
def preFilter (f : ProxyFactory κ) (targetType : Option TypeInfo) :
    Run κ σ ν (Flags × List (Advisor κ)) := do
  if f.preFilter then
    match targetType with
    | some type =>
      let kept ← asking (Advisor.findApplicable f.advisors type f.methods)
      log ⟨.debug, "Pre-filtered advisors for " ++ type.name ++ ": " ++ toString kept.length ++ " of "
        ++ toString f.advisors.length ++ " apply", []⟩
      return ({ f.flags with preFiltered := true }, kept)
    | none =>
      log ⟨.warn, "Cannot pre-filter advisors without a target type", []⟩
      return (f.flags, f.advisors)
  else return (f.flags, f.advisors)

/-- How the chains of a factory's proxy are built; a new standard registry tells of its adapters. -/
def chainFactoryOf (f : ProxyFactory κ) : Run κ σ ν (ChainFactory κ) := do
  match f.chainFactory, f.registry with
  | some code, _ => return .custom code
  | none, some registry => return .standard registry
  | none, none =>
    logAll (AdapterRegistry.standard : AdapterRegistry κ).registrationLines
    return .standard .standard

/-- The routing of a proxy with a finished configuration, and the types it may stand for. -/
def chooseDispatch (id : ConfigurationId) (c : Configuration κ) (targetType : Option TypeInfo) :
    Run κ σ ν (Except AopError (Dispatch × List TypeInfo)) := do
  if c.wantsSubclass targetType then
    match targetType with
    | none => return .error (.configuration
        "Target type is required for subclass proxy: neither a target nor contracts were given")
    | some type =>
      match ← newDispatcher host below id type with
      | .error e => return .error e
      | .ok dispatcher => return .ok (.subclass dispatcher, type :: c.interfaces)
  else return .ok (.contracts (.of c.interfaces), c.interfaces)

/-- The log line that tells of a proxy that was made. -/
def creationLine (p : Proxy) (sourceName : String) (advisors : Nat) : LogLine :=
  ⟨.debug, "Created " ++ p.strategy.name ++ " proxy for " ++ sourceName ++ " with "
    ++ toString advisors ++ " advisor(s)", []⟩

/-- Makes a proxy whose targets come from a source. -/
def makeProxyFor (f : ProxyFactory κ) (id : SourceId) (source : Source κ) :
    Run κ σ ν (Except AopError ProxyId) := do
  if f.advisors.isEmpty && source.isEmpty then
    return .error (.configuration "No advisors and no target source specified")
  else
    let (flags, advisors) ← preFilter f source.type
    let chainFactory ← chainFactoryOf f
    let c := f.configure flags id source.type advisors chainFactory
    let configuration ← newConfiguration c
    logAll (ProxyFactory.advisorLines advisors)
    if flags.frozen then freeze configuration
    match ← chooseDispatch host below configuration c source.type with
    | .error e => return .error e
    | .ok (dispatch, proxiedTypes) =>
      let proxy : Proxy := ⟨configuration, dispatch, proxiedTypes⟩
      let p ← addProxy proxy
      log (creationLine proxy source.name c.advisors.length)
      return .ok p

/-- Makes a proxy; a factory without a source gives it one that is empty. -/
def makeProxy (f : ProxyFactory κ) : Run κ σ ν (Except AopError ProxyId) := do
  let id ←
    match f.source with
    | some id => pure id
    | none => newSource (.empty none)
  match (← get).sources[id]? with
  | none => return .error (.configuration "No advisors and no target source specified")
  | some source => makeProxyFor host below f id source

end Run

end Weaving
