import Weaving.Adapter
import Weaving.Matching.Pointcut

/-
Advisors bind advice to calls: by a pointcut, for a whole type together with contracts that it
introduces, or without condition.  `canApply` tells whether an advisor can matter for a type with
some methods at all, and `findApplicable` keeps the advisors that can.

Matchers that want to know about introductions are asked with a flag.  Each such question is kept in
order, so that a run can show what was asked.
-/
namespace Weaving

/-- A question put to a matcher that wants to know about introductions. -/
structure Question where
  /-- The method asked about. -/
  method : String
  /-- Whether any introduction applies. -/
  introductions : Bool
  deriving DecidableEq

/-- Computations that put questions to matchers; the questions are kept in order. -/
abbrev Asking := StateM (List Question)

/-- Asks a matcher about a method; a question to one that wants to know about introductions is kept. -/
def MethodMatcher.ask (matcher : MethodMatcher) (m : MethodSignature) (target : TypeInfo)
    (introductions : Bool) : Asking Bool := do
  match matcher.introductionAware with
  | some test =>
    modify (· ++ [⟨m.name, introductions⟩])
    return test m target introductions
  | none => return matcher.admits m target

/-- Whether a matcher admits one of several methods; it is asked until it does. -/
def MethodMatcher.askAny (matcher : MethodMatcher) (target : TypeInfo) (introductions : Bool) :
    List MethodSignature → Asking Bool
  | [] => return false
  | m :: rest => do
    if ← matcher.ask m target introductions then return true
    else matcher.askAny target introductions rest

/-- Advice bound to calls. -/
inductive Advisor (κ : Type) where
  /-- Bound to the calls of a pointcut. -/
  | pointcut (rule : Pointcut) (advice : Advice κ)
  /-- Bound to every call on the types of a filter, whose proxies take on further contracts. -/
  | introduction (filter : ClassFilter) (interfaces : List TypeInfo) (advice : Advice κ)
  /-- Bound to every call. -/
  | unconditional (advice : Advice κ)

namespace Advisor

variable {κ : Type}

/-- The advice of an advisor. -/
def advice : Advisor κ → Advice κ
  | .pointcut _ advice => advice
  | .introduction _ _ advice => advice
  | .unconditional advice => advice

/-- Whether an advisor introduces contracts. -/
def isIntroduction : Advisor κ → Bool
  | .introduction _ _ _ => true
  | _ => false

/-- The contracts an advisor introduces. -/
def interfaces : Advisor κ → List TypeInfo
  | .introduction _ interfaces _ => interfaces
  | _ => []

/-- Whether an advisor introduces contracts to a type. -/
def introducesTo (target : TypeInfo) : Advisor κ → Bool
  | .introduction filter _ _ => filter target
  | _ => false

/-- An introduction whose contracts are served by a delegate. -/
def delegating (name : String) (identity : Nat) (delegate : TargetId) (interfaces : List TypeInfo)
    (filter : ClassFilter) : Advisor κ :=
  .introduction filter interfaces ⟨name, .around ⟨some identity, .delegate delegate interfaces⟩⟩

/-- The name of the first advice of a list that is this very interceptor. -/
def nameOf? (advisors : List (Advisor κ)) (i : Interceptor κ) : Option String := do
  let identity ← i.identity
  let owner ← advisors.find? fun a =>
    (a.advice.interceptor?.bind (·.identity)) = some identity
  return owner.advice.name

/-- The one-line description of an advisor. -/
def inspect : Advisor κ → String
  | .pointcut _ advice => Inspect.tuple "Pointcut" [advice.inspect]
  | .introduction _ interfaces advice =>
    Inspect.record "Introduction"
      [("advice", advice.inspect), ("interfaces", Inspect.quotedList (interfaces.map (·.name)))]
  | .unconditional advice => Inspect.tuple "Unconditional" [advice.inspect]

/--
Whether an advisor can matter for a type with the given methods.  Without methods nothing is known
about them, and a pointcut is judged by its type filter alone.
-/
def canApply (target : TypeInfo) (methods : List MethodSignature) (introductions : Bool) :
    Advisor κ → Asking Bool
  | .introduction filter _ _ => return filter target
  | .pointcut p _ => do
    if !p.filter target then return false
    else if p.matcher.admitsAll || methods.isEmpty then return true
    else p.matcher.askAny target introductions methods
  | .unconditional _ => return true

/-- The advisors of a list that can matter, given whether any introduction applies. -/
def keepApplicable (target : TypeInfo) (methods : List MethodSignature) (introductions : Bool) :
    List (Advisor κ) → Asking (List (Advisor κ))
  | [] => return []
  | a :: rest => do
    let keep ← a.canApply target methods introductions
    let later ← keepApplicable target methods introductions rest
    return if keep then a :: later else later

/-- The advisors of a list that can matter for a type with the given methods, in order. -/
def findApplicable (advisors : List (Advisor κ)) (target : TypeInfo)
    (methods : List MethodSignature) : Asking (List (Advisor κ)) :=
  keepApplicable target methods (advisors.any (·.introducesTo target)) advisors

end Advisor

end Weaving
