import Weaving.Advisor

/-
Interceptor chains.  A chain is the list of interceptors that one call runs through.  An entry is
settled when the chain is built, or bound to a runtime matcher that decides call by call.

`build` goes through the advisors in order.  Each one contributes a block of entries or nothing, and
the first advice without interceptors ends the building with its error.
-/
namespace Weaving

/-- One interceptor of a chain. -/
inductive ChainEntry (κ : Type) where
  /-- Runs in every call. -/
  | settled (interceptor : Interceptor κ)
  /-- Runs in the calls that the matcher admits. -/
  | dynamic (interceptor : Interceptor κ) (matcher : MethodMatcher)

namespace ChainEntry

variable {κ : Type}

/-- The interceptor of an entry. -/
def interceptor : ChainEntry κ → Interceptor κ
  | .settled interceptor => interceptor
  | .dynamic interceptor _ => interceptor

/-- Whether the entry is decided call by call. -/
def isDynamic : ChainEntry κ → Bool
  | .settled _ => false
  | .dynamic _ _ => true

/-- Whether the entry takes part in a call. -/
def admits (m : MethodSignature) (target : TypeInfo) (args : List Value) : ChainEntry κ → Bool
  | .settled _ => true
  | .dynamic _ matcher => matcher.admitsCall m target args

/-- The one-word description of an entry. -/
def inspect : ChainEntry κ → String
  | .settled _ => "Static"
  | .dynamic _ _ => "Dynamic"

end ChainEntry

/-- The interceptors of a call, outermost first. -/
abbrev Chain (κ : Type) := List (ChainEntry κ)

namespace Chain

variable {κ : Type}

/-- The one-line description of a chain. -/
def inspect (chain : Chain κ) : String := Inspect.list (chain.map ChainEntry.inspect)

/-- The entries of advice that runs in every call. -/
def settledBlock (registry : AdapterRegistry κ) (advice : Advice κ) : Except AopError (Chain κ) :=
  (registry.interceptors advice).map (·.map ChainEntry.settled)

/-- The entries of advice bound to a matcher. -/
def matchedBlock (registry : AdapterRegistry κ) (matcher : MethodMatcher) (advice : Advice κ) :
    Except AopError (Chain κ) :=
  (registry.interceptors advice).map fun interceptors =>
    interceptors.map fun i => if matcher.isRuntime then .dynamic i matcher else .settled i

/-- The entries that one advisor contributes. -/
def block (registry : AdapterRegistry κ) (preFiltered introductions : Bool) (m : MethodSignature)
    (target : TypeInfo) : Advisor κ → Asking (Except AopError (Chain κ))
  | .pointcut rule advice => do
    if preFiltered || rule.filter target then
      if ← rule.matcher.ask m target introductions then
        return matchedBlock registry rule.matcher advice
      else return .ok []
    else return .ok []
  | .introduction filter _ advice =>
    return if preFiltered || filter target then settledBlock registry advice else .ok []
  | .unconditional advice => return settledBlock registry advice

/-- The entries of a list of advisors, up to the first error. -/
def blocks (registry : AdapterRegistry κ) (preFiltered introductions : Bool) (m : MethodSignature)
    (target : TypeInfo) : List (Advisor κ) → Asking (Except AopError (Chain κ))
  | [] => return .ok []
  | a :: rest => do
    match ← block registry preFiltered introductions m target a with
    | .error e => return .error e
    | .ok entries =>
      match ← blocks registry preFiltered introductions m target rest with
      | .error e => return .error e
      | .ok later => return .ok (entries ++ later)

/-- The type that advisors are judged by: the target's if it is known, else the declaring one. -/
def effectiveType (m : MethodSignature) (target : Option TypeInfo) : TypeInfo :=
  target.getD m.declaringType

/-- Builds the chain of a method from the advisors in force. -/
def build (registry : AdapterRegistry κ) (advisors : List (Advisor κ)) (preFiltered : Bool)
    (m : MethodSignature) (target : Option TypeInfo) : Asking (Except AopError (Chain κ)) :=
  let type := effectiveType m target
  blocks registry preFiltered (advisors.any (·.introducesTo type)) m type advisors

/-- The log line that tells of a chain that was built. -/
def builtLine (m : MethodSignature) (target : Option TypeInfo) (chain : Chain κ) : LogLine :=
  ⟨.debug, "Built interceptor chain for " ++ m.text ++ " on " ++ (effectiveType m target).name ++ ": "
    ++ toString chain.length ++ " entr" ++ (if chain.length = 1 then "y" else "ies"), []⟩

end Chain

end Weaving
