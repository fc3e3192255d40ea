import Weaving.Chain.Cache
import Weaving.Proxy.Flags

/-
The configuration of a proxy: where its targets come from, the contracts it exposes and the advisors
in force.  Advisors and contracts may change until the configuration is frozen, which is final; a
change that is refused leaves the configuration as it was.
-/
namespace Weaving

/-- How chains are built for a configuration. -/
inductive ChainFactory (κ : Type) where
  /-- From the advisors, by a registry of adapters. -/
  | standard (registry : AdapterRegistry κ)
  /-- By code of the user's. -/
  | custom (code : κ)

/-- The configuration of a proxy. -/
structure Configuration (κ : Type) where
  /-- The flags. -/
  flags : Flags
  /-- Where targets come from. -/
  source : SourceId
  /-- The methods declared for the target type. -/
  methods : List MethodSignature
  /-- The advisors in order. -/
  advisors : List (Advisor κ)
  /-- The exposed contracts in order, each once. -/
  interfaces : List TypeInfo
  /-- Whether nothing may change any more. -/
  frozen : Bool
  /-- How chains are built. -/
  chainFactory : ChainFactory κ
  /-- The chains remembered since the configuration was frozen. -/
  cache : ChainCache κ

namespace Configuration

variable {κ : Type}

/-- A configuration with nothing in it yet. -/
def initial (flags : Flags) (source : SourceId) (methods : List MethodSignature)
    (chainFactory : ChainFactory κ) : Configuration κ :=
  { flags := flags, source := source, methods := methods, advisors := [], interfaces := [],
    frozen := false, chainFactory := chainFactory, cache := .empty }

/-- Refuses a change of a frozen configuration. -/
def ensureMutable (c : Configuration κ) (change : String) : Except AopError Unit :=
  if c.frozen then .error (.configuration ("Cannot " ++ change ++ ": proxy configuration is frozen"))
  else .ok ()

/-- Adds a contract unless it is there already. -/
def addInterface (c : Configuration κ) (type : TypeInfo) : Except AopError (Configuration κ) := do
  c.ensureMutable "add interface"
  return { c with interfaces := TypeInfo.pushNew c.interfaces type }

/-- Adds several contracts, each unless it is there already. -/
def exposeAll (c : Configuration κ) (types : List TypeInfo) : Configuration κ :=
  { c with interfaces := types.foldl TypeInfo.pushNew c.interfaces }

/-- The log line that tells of an advisor put at a position. -/
def insertionLine (a : Advisor κ) (position : Nat) : LogLine :=
  ⟨.debug, "Adding advisor " ++ a.inspect ++ " at position " ++ toString position, []⟩

/-- Puts an advisor at a position, or at the end; contracts it introduces are exposed. -/
def insertAdvisor (c : Configuration κ) (position : Option Nat) (a : Advisor κ) :
    Except AopError (Configuration κ × LogLine) := do
  c.ensureMutable "add advisor"
  let place := position.getD c.advisors.length
  if place > c.advisors.length then
    .error (.configuration ("Illegal advisor position " ++ toString place ++ ": only "
      ++ toString c.advisors.length ++ " advisor(s) configured"))
  else
    return ({ c.exposeAll a.interfaces with
      advisors := c.advisors.take place ++ a :: c.advisors.drop place }, insertionLine a place)

/-- Takes out the advisor at a position; contracts it introduced stay exposed. -/
def removeAdvisor (c : Configuration κ) (position : Nat) :
    Except AopError (Advisor κ × Configuration κ) := do
  c.ensureMutable "remove advisor"
  match c.advisors[position]? with
  | none =>
    .error (.configuration ("Advisor index " ++ toString position ++ " is out of bounds: only "
      ++ toString c.advisors.length ++ " advisor(s) configured"))
  | some a => return (a, { c with advisors := c.advisors.eraseIdx position })

/-- The log line that tells of a configuration being frozen. -/
def freezingLine (c : Configuration κ) : LogLine :=
  ⟨.debug, "Proxy configuration frozen with " ++ toString c.advisors.length ++ " advisor(s)", []⟩

/-- Freezes a configuration. -/
def freeze (c : Configuration κ) : Configuration κ :=
  if c.frozen then c else { c with frozen := true, cache := .empty }

/-- Whether an exposed contract may stand for a type. -/
def isInterfaceProxied (c : Configuration κ) (type : TypeInfo) : Bool :=
  c.interfaces.any (·.isAssignableTo type)

/-- Whether two requests for a chain of this configuration are answered with one shared chain. -/
def sharesChain (c : Configuration κ) (chain : Chain κ) : Bool := c.frozen || chain.isEmpty

/-- The one-line description of a configuration, given its source's name. -/
def inspect (c : Configuration κ) (sourceName : String) : String :=
  Inspect.record "AdvisedSupport"
    [("config", c.flags.inspect), ("target_source", Inspect.quoted sourceName),
     ("interfaces", Inspect.quotedList (c.interfaces.map (·.name))),
     ("advisors", Inspect.list (c.advisors.map Advisor.inspect)),
     ("frozen", Inspect.bool c.frozen)]

end Configuration

end Weaving
