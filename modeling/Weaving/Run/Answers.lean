import Weaving.Run.Proxies

/-
The answers to the requests of user code.

`answerWith` answers one request, given how the requests of the user code that it runs on the way are
answered.  `answer` closes the circle: nesting to a given depth, one level less for each request made
by code that runs while another request is being answered.  A run that would nest deeper has no
answer, and allowing more depth never changes an answer that there is.
-/
namespace Weaving.Run

variable {κ σ ν : Type} (host : Host κ σ ν)

/-- Changes a configuration as far as the change is allowed. -/
def changeConfiguration {α : Type} (id : ConfigurationId)
    (change : Configuration κ → Except AopError (α × Configuration κ)) :
    Run κ σ ν (Except AopError α) := do
  match (← get).configurations[id]? with
  | none => return .error (.configuration "No such configuration")
  | some c =>
    match change c with
    | .error e => return .error e
    | .ok (a, changed) =>
      modify (·.mapConfiguration id fun _ => changed)
      return .ok a

/-- Puts an advisor into a configuration. -/
def insertAdvisor (id : ConfigurationId) (position : Option Nat) (a : Advisor κ) :
    Run κ σ ν (Except AopError Unit) := do
  match ← changeConfiguration id fun c =>
      (c.insertAdvisor position a).map fun (changed, line) => (line, changed) with
  | .error e => return .error e
  | .ok line =>
    log line
    return .ok ()

/-- Answers one request, user code on the way being answered by `below`. -/
def answerWith (below : Handler κ σ ν) : (r : Request κ σ ν) → Run κ σ ν r.Answer
  | .recall => return (← get).memory
  | .remember memory => modify fun w => { w with memory := memory }
  | .note content => record (.note content)
  | .publish lines => logAll lines
  | .newTarget type code => newTarget type code
  | .newSource source => newSource source
  | .newCache => newCache
  | .target id => return (← get).targets[id]?
  | .source id => return (← get).sources[id]?
  | .proxy id => return (← get).proxies[id]?
  | .configuration id => return (← get).configurations[id]?
  | .dispatcher id => return (← get).dispatchers[id]?
  | .cache id => return (← get).caches[id]?
  | .proxyEquals id other => return (← get).proxyEquals id other
  | .configurationsEqual left right => return (← get).configurationsEqual left right
  | .proxyHash id => return (← get).proxyHash id
  | .makeProxy factory => makeProxy host below factory
  | .invoke id m arguments => invoke host below id m arguments
  | .addInterface id type => changeConfiguration id fun c => (c.addInterface type).map (((), ·))
  | .insertAdvisor id position a => insertAdvisor id position a
  | .removeAdvisor id position => changeConfiguration id fun c => c.removeAdvisor position
  | .freeze id => freeze id
  | .chainFor id m target => chainFor host below id m target
  | .precompute id => precompute host below id
  | .newDispatcher id targetType => newDispatcher host below id targetType
  | .routeBySubclass d id m arguments => routeBySubclass host below d id m arguments
  | .routeByContracts d id m arguments => routeByContracts host below d id m arguments
  | .current => return (← get).current
  | .expose value => expose value
  | .acquire id => acquire host below id
  | .release id target => release host below id target
  | .askMatcher matcher m target introductions => asking (matcher.ask m target introductions)
  | .canApply a target methods introductions => asking (a.canApply target methods introductions)
  | .findApplicable advisors target methods => asking (Advisor.findApplicable advisors target methods)
  | .buildChain registry advisors preFiltered m target => buildFrom registry advisors preFiltered m target
  | .runJoinPoint jp => runJoinPoint host below jp
  | .cachedChain id m target builder =>
    cachedOr (.standalone id) m target ((host.builder builder).run below)
  | .storeChain id m target chain =>
    modify (·.mapCache (.standalone id) (·.insert (ChainKey.of m target) chain))
  | .clearCache id => modify (·.mapCache (.standalone id) fun _ => .empty)

/-- Answers requests, user code nesting to a given depth. -/
def answer : Nat → Handler κ σ ν
  | 0 => fun _ _ => none
  | depth + 1 => answerWith host (answer depth)

/-- Runs user code from a world, to a given depth. -/
def code {α : Type} (depth : Nat) (program : Code κ σ ν α) (w : World κ σ ν) :
    Option (α × World κ σ ν) :=
  (program.run (answer host depth)).run w

end Weaving.Run
