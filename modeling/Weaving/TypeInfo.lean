import Weaving.Text.Inspect

/-
Types as the proxy engine sees them: a name, the supertypes in order, and three marks.  Types are
told apart by identity and never by name.  Every type is assignable to the root type; apart from
that, a type is assignable to exactly the types that its supertype edges reach.

`Universe` is the collection from which types come: a new type may only name types that are already
there, so supertype edges never form a cycle.
-/
namespace Weaving

/-- The identity of a type. -/
abbrev TypeId := Nat

/-- A type with its supertypes. -/
structure TypeInfo where
  /-- What tells this type from every other. -/
  id : TypeId
  /-- The name shown to users; several types may share one. -/
  name : String
  /-- The supertypes in the order of declaration, repetitions kept. -/
  supertypes : List TypeInfo
  /-- A contract only lists methods. -/
  contract : Bool
  /-- The type has an equality of its own. -/
  definesEquals : Bool
  /-- The type has a hash of its own. -/
  definesHash : Bool

namespace TypeInfo

/-- The type above all types. -/
def root : TypeInfo := ⟨0, "Object", [], false, false, false⟩

/-- The marker contract: methods declared under it may hand out the target itself. -/
def rawAccess : TypeInfo := ⟨1, "RawTargetAccess", [], true, false, false⟩

/-- Two types are the same type when their identities agree. -/
instance : BEq TypeInfo := ⟨fun a b => a.id == b.id⟩

/-- Whether a type is the root type. -/
def isRoot (t : TypeInfo) : Bool := t == root

mutual

/-- Whether a test holds of the type or of one of its direct or indirect supertypes. -/
def anyAncestor (test : TypeInfo → Bool) : TypeInfo → Bool
  | ⟨id, name, supertypes, contract, definesEquals, definesHash⟩ =>
    test ⟨id, name, supertypes, contract, definesEquals, definesHash⟩ || anyAncestorOf test supertypes

/-- Whether a test holds somewhere in the hierarchy of one of several types. -/
def anyAncestorOf (test : TypeInfo → Bool) : List TypeInfo → Bool
  | [] => false
  | t :: rest => anyAncestor test t || anyAncestorOf test rest

end

/-- Whether a value of type `t` may stand where a value of type `other` is wanted. -/
def isAssignableTo (t other : TypeInfo) : Bool :=
  other.isRoot || t.anyAncestor (· == other)

/-- Whether methods declared on this type may hand out the target itself. -/
def isRawAccess (t : TypeInfo) : Bool := t.isAssignableTo rawAccess

/-- Whether a type with this identity stands in a list of types. -/
def isIn (t : TypeInfo) (types : List TypeInfo) : Bool := types.any (· == t)

/-- A list of types with one more at its end, unless it is there already. -/
def pushNew (types : List TypeInfo) (t : TypeInfo) : List TypeInfo :=
  if t.isIn types then types else types ++ [t]

mutual

/-- The contracts a type implements: on each path upwards the first contract met, in order, each once. -/
def contracts : TypeInfo → List TypeInfo
  | ⟨_, _, supertypes, _, _, _⟩ => contractsOf supertypes []

/-- Adds what a list of supertypes contributes to the contracts found so far. -/
def contractsOf : List TypeInfo → List TypeInfo → List TypeInfo
  | [], found => found
  | t :: rest, found =>
    contractsOf rest (if t.contract then pushNew found t else t.contracts.foldl pushNew found)

end

/-- The one-line description of a type. -/
def inspect (t : TypeInfo) : String :=
  Inspect.record "TypeInfo"
    [("name", Inspect.quoted t.name), ("supertypes", Inspect.quotedList (t.supertypes.map (·.name))),
     ("contract", Inspect.bool t.contract)]

theorem anyAncestorOf_eq_any (test : TypeInfo → Bool) (types : List TypeInfo) :
    anyAncestorOf test types = types.any (anyAncestor test) := by
  induction types with
  | nil => rfl
  | cons t rest ih => simp [anyAncestorOf, ih]

theorem anyAncestor_eq (test : TypeInfo → Bool) (t : TypeInfo) :
    anyAncestor test t = (test t || t.supertypes.any (anyAncestor test)) := by
  cases t
  simp [anyAncestor, anyAncestorOf_eq_any]

/-- The recursive reading of assignability: the same type, the root, or through a supertype. -/
theorem isAssignableTo_eq (t other : TypeInfo) :
    t.isAssignableTo other =
      (t == other || other.isRoot || t.supertypes.any (·.isAssignableTo other)) := by
  unfold isAssignableTo
  rw [anyAncestor_eq]
  cases hroot : other.isRoot <;> simp

end TypeInfo

/-- What is said of a type when it is declared. -/
structure TypeSpec where
  /-- The name shown to users. -/
  name : String
  /-- The supertypes, taken from the same universe. -/
  supertypes : List TypeInfo := []
  /-- Whether the type is a contract. -/
  contract : Bool := false
  /-- Whether it has an equality of its own. -/
  definesEquals : Bool := false
  /-- Whether it has a hash of its own. -/
  definesHash : Bool := false

/-- All types declared so far, oldest first. -/
structure Universe where
  /-- The declared types; each has its position as identity. -/
  types : List TypeInfo

namespace Universe

/-- The universe before anything is declared: the root type and the marker contract. -/
def initial : Universe := ⟨[TypeInfo.root, TypeInfo.rawAccess]⟩

/-- Declares a type under the next free identity. -/
def declare (u : Universe) (spec : TypeSpec) : TypeInfo × Universe :=
  let t : TypeInfo := ⟨u.types.length, spec.name, spec.supertypes, spec.contract, spec.definesEquals,
    spec.definesHash⟩
  (t, ⟨u.types ++ [t]⟩)

/-- The universes that declarations lead to, each new type naming only types already there. -/
inductive Declared : Universe → Prop
  | initial : Declared Universe.initial
  | declare {u : Universe} (spec : TypeSpec) (known : ∀ t ∈ spec.supertypes, t ∈ u.types)
      (before : Declared u) : Declared (u.declare spec).2

end Universe

end Weaving
