import Weaving.Failure
import Weaving.Pattern.Wildcard
import Weaving.Text.Blank

/-
Expressions that select calls.  An expression is asked at three points: of a type alone, of a method
on a type, and of a call with its arguments.  What a point cannot decide is left open, so an answer
is a `Verdict`: yes, no, or open.
-/
namespace Weaving

/-- A yes, a no, or an open question. -/
abbrev Verdict := Option Bool

namespace Verdict

/-- No if either is no, yes if both are yes. -/
def both : Verdict → Verdict → Verdict
  | some false, _ => some false
  | _, some false => some false
  | some true, some true => some true
  | _, _ => none

/-- Yes if either is yes, no if both are no. -/
def either : Verdict → Verdict → Verdict
  | some true, _ => some true
  | _, some true => some true
  | some false, some false => some false
  | _, _ => none

/-- The opposite of a settled answer. -/
def opposite (v : Verdict) : Verdict := v.map (!·)

end Verdict

/-- An expression that selects calls. -/
inductive Expression where
  /-- Every call. -/
  | all
  /-- Calls on a type, or below a type, with such a name. -/
  | typePattern (pattern : Wildcard)
  /-- Calls of a method with such a name. -/
  | methodPattern (pattern : Wildcard)
  /-- Calls that a type pattern and a method pattern both select. -/
  | execution (owner method : Wildcard)
  /-- Calls on a type, or below a type, whose name a regular expression accepts. -/
  | typeRegex (regex : Regex)
  /-- Calls of a method whose name a regular expression accepts. -/
  | methodRegex (regex : Regex)
  /-- Calls on targets that are assignable to a type. -/
  | within (type : TypeInfo)
  /-- Calls that a test of the user's selects by method and target type. -/
  | custom (test : MethodSignature → TypeInfo → Bool)
  /-- Calls that a test of the user's selects by arguments. -/
  | args (test : List Value → Bool)
  /-- Calls that both select. -/
  | both (left right : Expression)
  /-- Calls that one of them selects. -/
  | either (left right : Expression)
  /-- Calls that it does not select. -/
  | negation (inner : Expression)

instance : Inhabited Expression := ⟨.all⟩

namespace Expression

/-- Whether the arguments have to be known to decide the expression. -/
def isRuntime : Expression → Bool
  | .args _ => true
  | .both l r => l.isRuntime || r.isRuntime
  | .either l r => l.isRuntime || r.isRuntime
  | .negation e => e.isRuntime
  | _ => false

/-- Whether a name in the hierarchy of a type passes a test. -/
def hierarchyNamed (test : String → Bool) (target : TypeInfo) : Bool :=
  target.anyAncestor fun t => test t.name

/-- Whether the declaring type's name, or a name in the target's hierarchy, passes a test. -/
def ownerNamed (test : String → Bool) (m : MethodSignature) (target : TypeInfo) : Bool :=
  test m.declaringType.name || hierarchyNamed test target

/-- What the type alone tells. -/
def couldMatchType (target : TypeInfo) : Expression → Verdict
  | .all => some true
  | .typePattern pattern => some (hierarchyNamed pattern.accepts target)
  | .execution owner _ => if hierarchyNamed owner.accepts target then none else some false
  | .typeRegex regex => some (hierarchyNamed regex.accepts target)
  | .within type => some (target.isAssignableTo type)
  | .methodPattern _ => none
  | .methodRegex _ => none
  | .custom _ => none
  | .args _ => none
  | .both l r => (l.couldMatchType target).both (r.couldMatchType target)
  | .either l r => (l.couldMatchType target).either (r.couldMatchType target)
  | .negation e => (e.couldMatchType target).opposite

/-- What the method and the target type tell, together with the arguments if they are known. -/
def evaluate (m : MethodSignature) (target : TypeInfo) (args : Option (List Value)) :
    Expression → Verdict
  | .all => some true
  | .typePattern pattern => some (ownerNamed pattern.accepts m target)
  | .methodPattern pattern => some (pattern.accepts m.name)
  | .execution owner method => some (ownerNamed owner.accepts m target && method.accepts m.name)
  | .typeRegex regex => some (ownerNamed regex.accepts m target)
  | .methodRegex regex => some (regex.accepts m.name)
  | .within type => some (target.isAssignableTo type)
  | .custom test => some (test m target)
  | .args test => args.map test
  | .both l r => (l.evaluate m target args).both (r.evaluate m target args)
  | .either l r => (l.evaluate m target args).either (r.evaluate m target args)
  | .negation e => (e.evaluate m target args).opposite

/-- What the method and the target type tell. -/
def matchesStatic (e : Expression) (m : MethodSignature) (target : TypeInfo) : Verdict :=
  e.evaluate m target none

/-- Whether a call is selected. -/
def matchesWithArgs (e : Expression) (m : MethodSignature) (target : TypeInfo) (args : List Value) :
    Bool :=
  (e.evaluate m target (some args)).getD false

/-- Splits a text at its last dot. -/
def splitAtLastDot : List Char → Option (List Char × List Char)
  | [] => none
  | c :: s =>
    match splitAtLastDot s with
    | some (before, after) => some (c :: before, after)
    | none => if c = '.' then some ([], s) else none

/--
Reads the short form of an execution expression: a return type, then type, dot and method, then the
parameters in parentheses.  Only the last word counts, up to its first parenthesis; its last dot
divides type and method, and without a dot it names a method.  A text of fewer than two words selects
every call.
-/
def ofExecution (engine : RegexEngine) (text : String) : Expression :=
  let words := Blank.words text.toList
  if words.length < 2 then .all
  else
    let callee := (words.getLastD []).takeWhile (· != '(')
    match splitAtLastDot callee with
    | some (type, method) =>
      .execution (.ofText engine (String.ofList type)) (.ofText engine (String.ofList method))
    | none => .methodPattern (.ofText engine (String.ofList callee))

/-- The one-line description of an expression. -/
def inspect : Expression → String
  | .all => "All"
  | .typePattern pattern => Inspect.tuple "TypePattern" [pattern.text]
  | .methodPattern pattern => Inspect.tuple "MethodPattern" [pattern.text]
  | .execution owner method => Inspect.tuple "Execution" [owner.text ++ "." ++ method.text]
  | .typeRegex regex => Inspect.tuple "TypeRegex" [regex.text]
  | .methodRegex regex => Inspect.tuple "MethodRegex" [regex.text]
  | .within type => Inspect.tuple "Within" [type.name]
  | .custom _ => "Custom(...)"
  | .args _ => "Args(...)"
  | .both l r => Inspect.tuple "And" [l.inspect, r.inspect]
  | .either l r => Inspect.tuple "Or" [l.inspect, r.inspect]
  | .negation e => Inspect.tuple "Not" [e.inspect]

end Expression

end Weaving
