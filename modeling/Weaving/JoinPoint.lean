import Weaving.Chain.Basic

/-
One call on its way through a chain.  The arguments and the attributes may change on the way; the
phase tells how far the call has come, and every level that ends sets it again.
-/
namespace Weaving

/-- How far a call has come. -/
inductive Phase where
  /-- Nothing has run. -/
  | notStarted
  /-- The interceptor at a position of the chain runs. -/
  | running (index : Nat)
  /-- The target runs. -/
  | targetInvoked
  /-- The last level to end had a value. -/
  | complete
  /-- The last level to end had an error. -/
  | failed
  deriving DecidableEq, Inhabited

namespace Phase

/-- The one-word description of a phase. -/
def inspect : Phase → String
  | .notStarted => "NotStarted"
  | .running index => Inspect.tuple "Running" [toString index]
  | .targetInvoked => "TargetInvoked"
  | .complete => "Complete"
  | .failed => "Failed"

/-- The phase in which a level ends. -/
def ofResult {ε α : Type} : Except ε α → Phase
  | .ok _ => .complete
  | .error _ => .failed

end Phase

/-- One call on its way through a chain. -/
structure JoinPoint (κ : Type) where
  /-- The number of the call in the run. -/
  call : Nat
  /-- The proxy that handles the call. -/
  proxy : Option ProxyId
  /-- The object at the end of the chain. -/
  target : Option TargetId
  /-- The method called. -/
  method : MethodSignature
  /-- The arguments as they are now. -/
  arguments : List Value
  /-- The target's type, or the declaring one if it is not known. -/
  targetType : TypeInfo
  /-- The interceptors. -/
  chain : Chain κ
  /-- How far the call has come. -/
  phase : Phase
  /-- Objects kept beside the call by name. -/
  attributes : List (String × Value)

namespace JoinPoint

variable {κ : Type}

/-- A call that has not started. -/
def opened (method : MethodSignature) (arguments : List Value) (target : Option TargetId)
    (targetType : Option TypeInfo) (chain : Chain κ) (proxy : Option ProxyId) : JoinPoint κ :=
  { call := 0, proxy := proxy, target := target, method := method, arguments := arguments,
    targetType := Chain.effectiveType method targetType, chain := chain, phase := .notStarted,
    attributes := [] }

/-- The one-line description of a call. -/
def inspect (jp : JoinPoint κ) : String :=
  Inspect.record "JoinPoint"
    [("signature", Inspect.quoted jp.method.text), ("target_type", Inspect.quoted jp.targetType.name),
     ("chain_len", toString jp.chain.length), ("phase", jp.phase.inspect)]

/-- The one-line description of a call seen from a position of its chain. -/
def inspectAt (jp : JoinPoint κ) (position : Nat) : String :=
  Inspect.record "ProceedingJoinPoint"
    [("join_point", jp.inspect), ("position", toString position)]

end JoinPoint

end Weaving
