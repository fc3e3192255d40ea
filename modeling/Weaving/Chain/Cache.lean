import Weaving.Chain.Basic
import Weaving.Assoc

/-
A memory of chains that were built, by method and target type.  Types count by identity, so types of
one name do not share entries, and a request without a target type has an entry of its own.
-/
namespace Weaving

/-- What a remembered chain was built for. -/
structure ChainKey where
  /-- The method. -/
  method : MethodKey
  /-- The identity of the target type, if there was one. -/
  target : Option TypeId
  deriving DecidableEq

namespace ChainKey

/-- The key of a method on a target type. -/
def of (m : MethodSignature) (target : Option TypeInfo) : ChainKey := ⟨m.key, target.map (·.id)⟩

/-- The one-line description of the key of a method on a target type. -/
def inspect (m : MethodSignature) (target : Option TypeInfo) : String :=
  Inspect.record "ChainKey"
    [("method", m.inspectKey), ("target_type", Inspect.option (target.map TypeInfo.inspect))]

end ChainKey

/-- Chains by what they were built for. -/
structure ChainCache (κ : Type) where
  /-- The entries in the order in which their keys came; no key comes twice. -/
  entries : List (ChainKey × Chain κ)

namespace ChainCache

variable {κ : Type}

/-- The cache without entries. -/
def empty : ChainCache κ := ⟨[]⟩

/-- The chain remembered for a key. -/
def find? (c : ChainCache κ) (key : ChainKey) : Option (Chain κ) := Assoc.get? key c.entries

/-- Remembers a chain unless its key has one already. -/
def insertNew (c : ChainCache κ) (key : ChainKey) (chain : Chain κ) : ChainCache κ :=
  ⟨Assoc.putNew key chain c.entries⟩

/-- Remembers a chain in place of any other of its key. -/
def insert (c : ChainCache κ) (key : ChainKey) (chain : Chain κ) : ChainCache κ :=
  ⟨Assoc.put key chain c.entries⟩

/-- The number of remembered chains. -/
def size (c : ChainCache κ) : Nat := c.entries.length

/-- The log line that tells of a chain about to be remembered. -/
def insertionLine (m : MethodSignature) (target : Option TypeInfo) : LogLine :=
  ⟨.debug, "Caching interceptor chain for " ++ ChainKey.inspect m target, []⟩

end ChainCache

end Weaving
