import Weaving.Failure

/-
Target sources: where the object comes from that a call finally reaches.  A static source always
gives the same object, or none, and takes nothing back.  A pool lends a bounded number of objects
and lends again what was returned, the latest first.
-/
namespace Weaving

/-- What a source is known by: the word that stands for an object, the one that stands for a source, or
some other word. -/
inductive Identity where
  /-- The word of an object. -/
  | ofTarget (id : TargetId)
  /-- The word of a source. -/
  | ofSource (id : SourceId)
  /-- A word that stands for neither. -/
  | other (word : UInt64)
  deriving DecidableEq

/-- A machine word for an identity; different objects and sources have different words. -/
def Identity.word : Identity → UInt64
  | .ofTarget id => UInt64.ofNat (32 * id + 16)
  | .ofSource id => UInt64.ofNat (32 * id + 32)
  | .other word => word

/-- The state of a pool of target objects. -/
structure Pool where
  /-- How many objects may be lent at a time. -/
  maxSize : Nat
  /-- How many objects are lent, or about to be. -/
  active : Nat
  /-- The objects returned and not lent again, latest first. -/
  idle : List TargetId
  deriving DecidableEq

namespace Pool

/-- A pool that has lent nothing. -/
def fresh (maxSize : Nat) : Pool := ⟨maxSize, 0, []⟩

/-- What a pool does when an object is wanted. -/
inductive Lending where
  /-- It lends nothing: the limit is reached. -/
  | exhausted
  /-- It lends an idle object. -/
  | idle (target : TargetId) (after : Pool)
  /-- It has reserved a place; the object still has to be made. -/
  | vacant (after : Pool)

/-- Lends an object, or reserves a place for one. -/
def lend (p : Pool) : Lending :=
  if p.active < p.maxSize then
    match p.idle with
    | target :: rest => .idle target { p with active := p.active + 1, idle := rest }
    | [] => .vacant { p with active := p.active + 1 }
  else .exhausted

/-- Gives a reserved place back.  The count stops at zero, where that of a machine word would wrap
around; a pool that gets back only what it has lent never comes to that. -/
def giveUp (p : Pool) : Pool := { p with active := p.active - 1 }

/-- Takes an object back, with the count as for a place that is given up. -/
def takeBack (p : Pool) (target : TargetId) : Pool :=
  { p with active := p.active - 1, idle := target :: p.idle }

end Pool

/-- What a source of the user's says of itself, once and for all.  Unless the user says otherwise it is
not empty and is known by itself. -/
structure CustomSource where
  /-- Its name. -/
  name : String
  /-- The type of the objects it gives, if it is known. -/
  type : Option TypeInfo
  /-- Whether it always gives the same object and takes nothing back. -/
  isStatic : Bool
  /-- Whether it has nothing to give. -/
  isEmpty : Bool := false
  /-- What it is known by instead of itself. -/
  identity : Option Identity := none

/-- A target source; code of the user's makes the objects of prototype and pooled sources. -/
inductive Source (κ : Type) where
  /-- One object of a type, always. -/
  | singleton (target : TargetId) (type : TypeInfo)
  /-- No object at all. -/
  | empty (type : Option TypeInfo)
  /-- A new object for every call. -/
  | prototype (type : TypeInfo) (factory : κ)
  /-- An object of a pool for every call. -/
  | pooled (type : TypeInfo) (pool : Pool) (factory : κ)
  /-- A source of the user's. -/
  | custom (about : CustomSource) (code : κ)

namespace Source

variable {κ : Type}

/-- The name of a source. -/
def name : Source κ → String
  | .singleton _ _ => "SingletonTargetSource"
  | .empty _ => "EmptyTargetSource"
  | .prototype _ _ => "PrototypeTargetSource"
  | .pooled _ _ _ => "PooledTargetSource"
  | .custom about _ => about.name

/-- The type of the objects a source gives, if it is known. -/
def type : Source κ → Option TypeInfo
  | .singleton _ type => some type
  | .empty type => type
  | .prototype type _ => some type
  | .pooled type _ _ => some type
  | .custom about _ => about.type

/-- Whether a source always gives the same object and takes nothing back. -/
def isStatic : Source κ → Bool
  | .singleton _ _ => true
  | .empty _ => true
  | .prototype _ _ => false
  | .pooled _ _ _ => false
  | .custom about _ => about.isStatic

/-- Whether a source has nothing to give: it gives no object and knows no type, or its user says so. -/
def isEmpty : Source κ → Bool
  | .empty none => true
  | .custom about _ => about.isEmpty
  | _ => false

/-- What a source is known by instead of itself: a source that always gives one object is known by that
object, and a source of the user's by what its user says. -/
def givenIdentity : Source κ → Option Identity
  | .singleton target _ => some (.ofTarget target)
  | .custom about _ => about.identity
  | _ => none

/-- The pool of a pooled source. -/
def pool? : Source κ → Option Pool
  | .pooled _ pool _ => some pool
  | _ => none

/-- A pooled source with its pool changed; other sources stay as they are. -/
def mapPool (change : Pool → Pool) : Source κ → Source κ
  | .pooled type pool factory => .pooled type (change pool) factory
  | source => source

/-- The error of a pool whose limit is reached. -/
def exhausted (maxSize : Nat) : AopError :=
  .targetUnavailable "PooledTargetSource" ("pool exhausted (max size " ++ toString maxSize ++ ")")

end Source

/-- The identity of the source with a number. -/
def Identity.of {κ : Type} (id : SourceId) (source : Source κ) : Identity :=
  source.givenIdentity.getD (.ofSource id)

end Weaving
