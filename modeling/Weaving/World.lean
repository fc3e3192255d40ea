import Weaving.JoinPoint
import Weaving.Proxy.Basic
import Weaving.Source

/-
The world of a run: every long-lived object under its identity, the proxy exposed at the moment, what
the user's code remembers, and the trace of everything that happened.

The trace holds the user's notes, log lines and questions put to matchers in one order.  It also
holds the acts of the engine, each with the number of its call: entering an interceptor, reaching a
target, and taking a target from its source and giving it back.
-/
namespace Weaving

/-- The identity of a cache outside a configuration. -/
abbrev CacheId := Nat

/-- What the engine does in the course of a call. -/
inductive Act where
  /-- A target was taken from a source, or none was there to take. -/
  | acquired (call : Nat) (source : SourceId) (target : Option TargetId)
  /-- A source failed to give a target. -/
  | refused (call : Nat) (source : SourceId)
  /-- A call entered the interceptor at a position. -/
  | entered (call : Nat) (index : Nat) (phase : Phase)
  /-- A call reached an object; the phase is missing when no chain was run. -/
  | reached (call : Nat) (target : TargetId) (arguments : List Value) (phase : Option Phase)
  /-- The rest of a chain, from a position on, came to an end. -/
  | returned (call : Nat) (index : Nat) (succeeded : Bool) (phase : Phase)
  /-- A target was given back to its source. -/
  | released (call : Nat) (source : SourceId) (target : TargetId) (succeeded : Bool)
  deriving DecidableEq

/-- Something that happened in a run. -/
inductive Event (ν : Type) where
  /-- The user's code noted something. -/
  | note (content : ν)
  /-- The engine logged a line. -/
  | logged (line : LogLine)
  /-- A matcher was asked. -/
  | asked (question : Question)
  /-- The engine did something in the course of a call. -/
  | act (act : Act)

/-- A target object: its type, and the user's code behind its methods. -/
structure Target (κ : Type) where
  /-- Its type. -/
  type : TypeInfo
  /-- The code behind its methods. -/
  code : κ

/-- The world of a run. -/
structure World (κ σ ν : Type) where
  /-- The target objects. -/
  targets : Array (Target κ)
  /-- The target sources. -/
  sources : Array (Source κ)
  /-- The configurations. -/
  configurations : Array (Configuration κ)
  /-- The dispatchers of the subclass strategy. -/
  dispatchers : Array (SubclassDispatcher κ)
  /-- The proxies. -/
  proxies : Array Proxy
  /-- The caches outside configurations. -/
  caches : Array (ChainCache κ)
  /-- The object exposed as the current proxy. -/
  current : Option Value
  /-- The number of calls begun. -/
  calls : Nat
  /-- What the user's code remembers. -/
  memory : σ
  /-- What happened, latest first. -/
  trace : List (Event ν)

/-- A cache of a configuration, or one outside. -/
inductive CacheRef where
  /-- The cache of a configuration. -/
  | ofConfiguration (id : ConfigurationId)
  /-- A cache outside. -/
  | standalone (id : CacheId)

namespace World

variable {κ σ ν : Type}

/-- The world before anything has happened. -/
def initial (memory : σ) : World κ σ ν :=
  { targets := #[], sources := #[], configurations := #[], dispatchers := #[], proxies := #[],
    caches := #[], current := none, calls := 0, memory := memory, trace := [] }

/-- A world in which something more has happened. -/
def record (w : World κ σ ν) (e : Event ν) : World κ σ ν := { w with trace := e :: w.trace }

/-- A world in which a configuration has changed. -/
def mapConfiguration (w : World κ σ ν) (id : ConfigurationId)
    (change : Configuration κ → Configuration κ) : World κ σ ν :=
  { w with configurations := w.configurations.modify id change }

/-- A world in which a source has changed. -/
def mapSource (w : World κ σ ν) (id : SourceId) (change : Source κ → Source κ) : World κ σ ν :=
  { w with sources := w.sources.modify id change }

/-- A world in which a dispatcher has changed. -/
def mapDispatcher (w : World κ σ ν) (id : DispatcherId)
    (change : SubclassDispatcher κ → SubclassDispatcher κ) : World κ σ ν :=
  { w with dispatchers := w.dispatchers.modify id change }

/-- The cache that a reference names. -/
def cache? (w : World κ σ ν) : CacheRef → Option (ChainCache κ)
  | .ofConfiguration id => (w.configurations[id]?).map (·.cache)
  | .standalone id => w.caches[id]?

/-- A world in which a cache has changed. -/
def mapCache (w : World κ σ ν) (ref : CacheRef) (change : ChainCache κ → ChainCache κ) :
    World κ σ ν :=
  match ref with
  | .ofConfiguration id => w.mapConfiguration id fun c => { c with cache := change c.cache }
  | .standalone id => { w with caches := w.caches.modify id change }

/-- The identity of a source. -/
def identity? (w : World κ σ ν) (id : SourceId) : Option Identity :=
  (w.sources[id]?).map (Identity.of id)

/-- The configuration of a proxy. -/
def configurationOf? (w : World κ σ ν) (p : ProxyId) : Option (Configuration κ) :=
  (w.proxies[p]?).bind fun proxy => w.configurations[proxy.configuration]?

/-- The name of a source, as descriptions show it. -/
def sourceName (w : World κ σ ν) (id : SourceId) : String :=
  ((w.sources[id]?).map Source.name).getD ""

end World

/-- Computations in a world; one that nests calls deeper than it was allowed has no answer. -/
abbrev Run (κ σ ν : Type) := StateT (World κ σ ν) Option

namespace Run

variable {κ σ ν : Type}

/-- Adds to the trace. -/
def record (e : Event ν) : Run κ σ ν Unit := modify (·.record e)

/-- Logs a line. -/
def log (line : LogLine) : Run κ σ ν Unit := record (.logged line)

/-- Logs a message that concerns developers only. -/
def trace (message : String) : Run κ σ ν Unit := log ⟨.trace, message, []⟩

/-- Logs several lines in order. -/
def logAll : List LogLine → Run κ σ ν Unit
  | [] => return ()
  | line :: rest => do
    log line
    logAll rest

/-- Records several questions in order. -/
def recordQuestions : List Question → Run κ σ ν Unit
  | [] => return ()
  | q :: rest => do
    record (.asked q)
    recordQuestions rest

/-- Asks matchers, recording the questions. -/
def asking {α : Type} (x : Asking α) : Run κ σ ν α := do
  let (answer, questions) := x.run []
  recordQuestions questions
  return answer

/-- The number of a call that begins. -/
def beginCall : Run κ σ ν Nat := do
  let w ← get
  set { w with calls := w.calls + 1 }
  return w.calls

end Run

end Weaving
