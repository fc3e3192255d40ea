import Weaving.Matching.Expression

/-
Pointcuts: the rule by which advice is bound to calls.  A pointcut has two levels, a filter on target
types and a matcher on methods; a runtime matcher is asked once more with the arguments of each call.
Filters and matchers are pure tests.  A matcher may also want to know whether any introduction
applies to the proxy; it then has a second test that is told.
-/
namespace Weaving

/-- A test on target types. -/
abbrev ClassFilter := TypeInfo → Bool

namespace ClassFilter

/-- Accepts every type. -/
def all : ClassFilter := fun _ => true

/-- Accepts the types with such a name. -/
def named (pattern : Wildcard) : ClassFilter := fun t => pattern.accepts t.name

/-- Accepts a type and everything below it. -/
def below (root : TypeInfo) : ClassFilter := fun t => t.isAssignableTo root

end ClassFilter

/-- A test on methods, and on calls if it is a runtime matcher. -/
structure MethodMatcher where
  /-- The test on a method and a target type. -/
  admits : MethodSignature → TypeInfo → Bool
  /-- Whether each call has to be tested too. -/
  isRuntime : Bool := false
  /-- The test on a call. -/
  admitsCall : MethodSignature → TypeInfo → List Value → Bool := fun _ _ _ => true
  /-- Whether the matcher claims to admit every method. -/
  admitsAll : Bool := false
  /-- The test that is told whether any introduction applies, if the matcher wants to know. -/
  introductionAware : Option (MethodSignature → TypeInfo → Bool → Bool) := none

namespace MethodMatcher

/-- Admits every method. -/
def all : MethodMatcher := { admits := fun _ _ => true, admitsAll := true }

/-- A test of the user's on methods. -/
def ofTest (test : MethodSignature → TypeInfo → Bool) : MethodMatcher := { admits := test }

/-- A test of the user's on the calls of every method. -/
def ofCallTest (test : MethodSignature → List Value → Bool) : MethodMatcher :=
  { admits := fun _ _ => true, isRuntime := true, admitsCall := fun m _ args => test m args }

/-- A test of the user's on the calls of the methods with such a name. -/
def ofCallTestFor (pattern : Wildcard) (test : MethodSignature → List Value → Bool) : MethodMatcher :=
  { admits := fun m _ => pattern.accepts m.name, isRuntime := true,
    admitsCall := fun m _ args => test m args }

/-- Admits the methods one of whose patterns accepts the name. -/
def named (patterns : List Wildcard) : MethodMatcher :=
  { admits := fun m _ => patterns.any (·.accepts m.name) }

/-- Admits what an expression does not rule out, and asks it again with the arguments if it needs them. -/
def ofExpression (e : Expression) : MethodMatcher :=
  { admits := fun m t => e.matchesStatic m t != some false, isRuntime := e.isRuntime,
    admitsCall := e.matchesWithArgs }

end MethodMatcher

/-- A filter on target types with a matcher on methods. -/
structure Pointcut where
  /-- The filter on target types. -/
  filter : ClassFilter
  /-- The matcher on methods. -/
  matcher : MethodMatcher

namespace Pointcut

/-- Every call. -/
def always : Pointcut := ⟨.all, .all⟩

/-- The calls a matcher admits, on any type. -/
def ofMatcher (matcher : MethodMatcher) : Pointcut := ⟨.all, matcher⟩

/-- The calls of methods with one of several names, on any type. -/
def named (patterns : List Wildcard) : Pointcut := ⟨.all, .named patterns⟩

/-- The calls of methods with such a name whose arguments pass a test, on any type. -/
def ofCallTest (pattern : Wildcard) (test : MethodSignature → List Value → Bool) : Pointcut :=
  ⟨.all, .ofCallTestFor pattern test⟩

/-- The calls that an expression selects. -/
def ofExpression (e : Expression) : Pointcut :=
  ⟨fun t => e.couldMatchType t != some false, .ofExpression e⟩

/-- The same pointcut with another filter on target types. -/
def withFilter (p : Pointcut) (filter : ClassFilter) : Pointcut := { p with filter := filter }

end Pointcut

end Weaving
