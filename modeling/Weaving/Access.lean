import Weaving.Request

/-
What user code can see of proxies: the one exposed at the moment, and the configurations of those
that do not hide them.
-/
namespace Weaving.Code

variable {κ σ ν : Type}

/-- Makes a request. -/
def ask (r : Request κ σ ν) : Code κ σ ν r.Answer := Program.request r

/-- The exposed object if it is of the sort wanted; any other counts as no proxy at all. -/
def exposed (wanted : Value → Bool) : Code κ σ ν Result := do
  match (← ask .current).filter wanted with
  | some value => return .ok (some value)
  | none => return .error .proxyNotExposed

/-- The configuration of a proxy that does not hide it. -/
def configuration? (p : Proxy) : Code κ σ ν (Option (Configuration κ)) :=
  return (← ask (.configuration p.configuration)).filter fun c => !c.flags.hidden

/-- Whether the configurations of two proxies make them equal, if neither proxy hides its own. -/
def configurationsAgree? (p q : Proxy) : Code κ σ ν (Option Bool) := do
  let left : Option (Configuration κ) ← configuration? p
  let right : Option (Configuration κ) ← configuration? q
  if left.isSome && right.isSome then
    return some (← ask (.configurationsEqual p.configuration q.configuration))
  else return none

/-- The one-line description of a proxy, with its configuration. -/
def inspectProxy (p : Proxy) : Code κ σ ν String := do
  match ← ask (.configuration p.configuration) with
  | none => return ""
  | some c => return p.inspect c (((← ask (.source c.source)).map Source.name).getD "")

end Weaving.Code
