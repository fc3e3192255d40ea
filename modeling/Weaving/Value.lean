/-
The objects that flow through calls.  Targets, proxies and the other long-lived objects are held by
identity; what they are is looked up in the world of a run.
-/
namespace Weaving

/-- The identity of a target object. -/
abbrev TargetId := Nat

/-- The identity of a proxy. -/
abbrev ProxyId := Nat

/-- The identity of a target source. -/
abbrev SourceId := Nat

/-- An object passed to a method, returned by one, or stored beside a call. -/
inductive Value where
  /-- A string. -/
  | text (s : String)
  /-- A signed integer. -/
  | int (i : Int)
  /-- A truth value. -/
  | bool (b : Bool)
  /-- A machine word, such as a hash. -/
  | word (w : UInt64)
  /-- A count. -/
  | count (n : Nat)
  /-- A proxy. -/
  | proxy (id : ProxyId)
  /-- A target object. -/
  | target (id : TargetId)
  deriving DecidableEq, Inhabited

namespace Value

/-- The name of an object's type, as code that wants a certain type of object says it. -/
def typeName : Value → String
  | .text _ => "String"
  | .int _ => "i64"
  | .bool _ => "bool"
  | .word _ => "u64"
  | .count _ => "usize"
  | .proxy _ => "proxy"
  | .target _ => "target"

/-- The string that an object is, if it is one. -/
def text? : Value → Option String
  | .text s => some s
  | _ => none

/-- The proxy that an object is, if it is one. -/
def proxy? : Value → Option ProxyId
  | .proxy p => some p
  | _ => none

end Value

end Weaving
