import Weaving.Request

/-
Targets in a run: calling one, taking one from its source, giving it back.
-/
namespace Weaving.Run

variable {κ σ ν : Type} (host : Host κ σ ν) (below : Handler κ σ ν)

/-- Calls a method of a target object. -/
def callTarget (target : TargetId) (m : MethodSignature) (arguments : List Value) :
    Run κ σ ν Result := do
  match (← get).targets[target]? with
  | some object => (host.target object.code target m arguments).run below
  | none => return .error (.noTarget m.text)

/-- Makes a new object for a pool that has reserved a place; a failure gives the place back. -/
def fillVacancy (source : SourceId) (factory : κ) : Run κ σ ν (Except AopError (Option TargetId)) := do
  match ← (host.make factory).run below with
  | .ok target => return .ok (some target)
  | .error e =>
    modify (·.mapSource source (Source.mapPool Pool.giveUp))
    return .error e

/-- Takes a target from a source. -/
def acquire (source : SourceId) : Run κ σ ν (Except AopError (Option TargetId)) := do
  match (← get).sources[source]? with
  | none => return .ok none
  | some (.singleton target _) => return .ok (some target)
  | some (.empty _) => return .ok none
  | some (.prototype _ factory) => return (← (host.make factory).run below).map some
  | some (.pooled _ pool factory) =>
    match pool.lend with
    | .exhausted => return .error (Source.exhausted pool.maxSize)
    | .idle target after =>
      modify (·.mapSource source (Source.mapPool fun _ => after))
      return .ok (some target)
    | .vacant after =>
      modify (·.mapSource source (Source.mapPool fun _ => after))
      fillVacancy host below source factory
  | some (.custom _ code) => (host.acquire code).run below

/-- Gives a target back to a source. -/
def release (source : SourceId) (target : TargetId) : Run κ σ ν (Except AopError Unit) := do
  match (← get).sources[source]? with
  | some (.prototype type _) =>
    trace ("Releasing prototype target of type " ++ type.name)
    return .ok ()
  | some (.pooled _ _ _) =>
    modify (·.mapSource source (Source.mapPool (·.takeBack target)))
    return .ok ()
  | some (.custom _ code) => (host.release code target).run below
  | _ => return .ok ()

end Weaving.Run
