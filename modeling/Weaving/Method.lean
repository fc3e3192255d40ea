import Weaving.TypeInfo

/-
Method signatures: where a method is declared, its name and parameter types, what it returns and
which checked failures it may raise.  Two signatures denote the same method when the declaring type,
the name and the parameter types agree; `MethodKey` is exactly that part.
-/
namespace Weaving

/-- What a method returns. -/
inductive ReturnType where
  /-- Nothing. -/
  | unit
  /-- A basic value, which is never missing. -/
  | primitive (name : String)
  /-- An object of a type. -/
  | reference (type : TypeInfo)
  /-- An object of any type. -/
  | any

namespace ReturnType

/-- Whether the returned value may never be missing. -/
def isPrimitive : ReturnType → Bool
  | .primitive _ => true
  | _ => false

/-- The name of the returned type. -/
def name : ReturnType → String
  | .unit => "()"
  | .primitive name => name
  | .reference type => type.name
  | .any => TypeInfo.root.name

/-- The one-line description of a return type. -/
def inspect : ReturnType → String
  | .unit => "Unit"
  | .primitive name => Inspect.tuple "Primitive" [Inspect.quoted name]
  | .reference type => Inspect.tuple "Reference" [type.inspect]
  | .any => "Any"

end ReturnType

/-- The role of a method: the three identity methods are answered by the proxy itself. -/
inductive MethodKind where
  /-- An ordinary method. -/
  | regular
  /-- Equality of objects. -/
  | equals
  /-- The hash of an object. -/
  | hashCode
  /-- The last rites of an object. -/
  | finalize
  deriving DecidableEq, Inhabited

/-- The name of a method's role. -/
def MethodKind.name : MethodKind → String
  | .regular => "Regular"
  | .equals => "Equals"
  | .hashCode => "HashCode"
  | .finalize => "Finalize"

/-- What makes two signatures the same method. -/
structure MethodKey where
  /-- The identity of the declaring type. -/
  declaringType : TypeId
  /-- The method's name. -/
  name : String
  /-- The names of the parameter types. -/
  parameterTypes : List String
  deriving DecidableEq

/-- A method signature. -/
structure MethodSignature where
  /-- The type the method is declared on. -/
  declaringType : TypeInfo
  /-- The method's name. -/
  name : String
  /-- The names of the parameter types. -/
  parameterTypes : List String := []
  /-- What the method returns. -/
  returnType : ReturnType := .unit
  /-- The kinds of checked failure the method may raise. -/
  declaredFailures : List String := []
  /-- The role of the method. -/
  kind : MethodKind := .regular

namespace MethodSignature

/-- The equality method of the root type. -/
def equals : MethodSignature :=
  { declaringType := TypeInfo.root, name := "equals", parameterTypes := ["Object"],
    returnType := .primitive "bool", kind := .equals }

/-- The hash method of the root type. -/
def hashCode : MethodSignature :=
  { declaringType := TypeInfo.root, name := "hash_code", returnType := .primitive "u64",
    kind := .hashCode }

/-- The finalizer of the root type. -/
def finalizer : MethodSignature :=
  { declaringType := TypeInfo.root, name := "finalize", kind := .finalize }

/-- What makes this method the method it is. -/
def key (m : MethodSignature) : MethodKey := ⟨m.declaringType.id, m.name, m.parameterTypes⟩

/-- Two signatures are the same method when their keys agree. -/
instance : BEq MethodSignature := ⟨fun a b => a.key == b.key⟩

/-- Whether the method declares a kind of checked failure. -/
def declaresFailure (m : MethodSignature) (kind : String) : Bool := m.declaredFailures.contains kind

/-- The full text of a signature: type, name and parameter types. -/
def text (m : MethodSignature) : String :=
  m.declaringType.name ++ "::" ++ m.name ++ "(" ++ String.intercalate ", " m.parameterTypes ++ ")"

/-- The one-line description of a signature. -/
def inspect (m : MethodSignature) : String :=
  Inspect.record "MethodSignature"
    [("signature", Inspect.quoted m.text), ("return_type", Inspect.quoted m.returnType.name),
     ("kind", m.kind.name)]

/-- The one-line description of a method's key. -/
def inspectKey (m : MethodSignature) : String :=
  Inspect.record "MethodKey"
    [("declaring_type", m.declaringType.inspect), ("name", Inspect.quoted m.name),
     ("parameter_types", Inspect.quotedList m.parameterTypes)]

end MethodSignature

end Weaving
