import Weaving.Request

/-
Chains in a run: building one for a call, and remembering chains once a configuration is frozen.
-/
namespace Weaving.Run

variable {κ σ ν : Type} (host : Host κ σ ν) (below : Handler κ σ ν)

/-- Builds a chain from advisors by a registry of adapters. -/
def buildFrom (registry : AdapterRegistry κ) (advisors : List (Advisor κ)) (preFiltered : Bool)
    (m : MethodSignature) (target : Option TypeInfo) : Run κ σ ν (Except AopError (Chain κ)) := do
  match ← asking (Chain.build registry advisors preFiltered m target) with
  | .ok chain =>
    log (Chain.builtLine m target chain)
    return .ok chain
  | .error e => return .error e

/-- Builds the chain of a method from the advisors of a configuration. -/
def buildChain (c : Configuration κ) (m : MethodSignature) (target : Option TypeInfo) :
    Run κ σ ν (Except AopError (Chain κ)) :=
  match c.chainFactory with
  | .standard registry => buildFrom registry c.advisors c.flags.preFiltered m target
  | .custom code => (host.chain code c.advisors c.flags.preFiltered m target).run below

/-- The chain remembered in a cache; if there is none it is built and remembered. -/
def cachedOr (ref : CacheRef) (m : MethodSignature) (target : Option TypeInfo)
    (build : Run κ σ ν (Except AopError (Chain κ))) : Run κ σ ν (Except AopError (Chain κ)) := do
  let key := ChainKey.of m target
  match ((← get).cache? ref).bind (·.find? key) with
  | some chain => return .ok chain
  | none =>
    match ← build with
    | .error e => return .error e
    | .ok chain =>
      log (ChainCache.insertionLine m target)
      modify (·.mapCache ref (·.insertNew key chain))
      return .ok ((((← get).cache? ref).bind (·.find? key)).getD chain)

/-- The chain of a method under a configuration, which remembers chains only when it is frozen. -/
def chainFor (id : ConfigurationId) (m : MethodSignature) (target : Option TypeInfo) :
    Run κ σ ν (Except AopError (Chain κ)) := do
  match (← get).configurations[id]? with
  | none => return .ok []
  | some c =>
    if c.frozen then cachedOr (.ofConfiguration id) m target (buildChain host below c m target)
    else buildChain host below c m target

/-- The chains of several methods, up to the first error. -/
def chainsFor (id : ConfigurationId) (target : Option TypeInfo) :
    List MethodSignature → Run κ σ ν (Except AopError (List (MethodSignature × Chain κ)))
  | [] => return .ok []
  | m :: rest => do
    match ← chainFor host below id m target with
    | .error e => return .error e
    | .ok chain =>
      match ← chainsFor id target rest with
      | .error e => return .error e
      | .ok later => return .ok ((m, chain) :: later)

/-- The chains of the declared methods of a frozen configuration. -/
def precompute (id : ConfigurationId) :
    Run κ σ ν (Except AopError (List (MethodSignature × Chain κ))) := do
  let w ← get
  match w.configurations[id]? with
  | none => return .ok []
  | some c =>
    if c.frozen then chainsFor host below id ((w.sources[c.source]?).bind Source.type) c.methods
    else return .ok []

end Weaving.Run
