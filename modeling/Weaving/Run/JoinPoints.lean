import Weaving.Run.Targets

/-
One call running through its chain.

`proceedFrom` takes the rest of the chain and its position.  It skips the entries that do not admit
the call as it is at that moment, runs the first one that does, and hands it the rest of the chain to
proceed with; at the end of the chain it reaches the target.  An interceptor may proceed any number
of times, and each time starts from the same position.
-/
namespace Weaving

/-- Computations at a call. -/
abbrev AtCall (κ σ ν : Type) := StateT (JoinPoint κ) (Run κ σ ν)

namespace AtCall

variable {κ σ ν : Type} (host : Host κ σ ν) (below : Handler κ σ ν)

/-- Lets the call enter a phase. -/
def enterPhase (phase : Phase) : AtCall κ σ ν Unit := modify fun jp => { jp with phase := phase }

/-- Records an act of the call. -/
def act (a : Nat → Act) : AtCall κ σ ν Unit := do
  let jp ← get
  liftM (Run.record (.act (a jp.call)) : Run κ σ ν Unit)

/-- Logs a line. -/
def log (level : Level) (message : String) (fields : List (String × String)) : AtCall κ σ ν Unit :=
  liftM (Run.log ⟨level, message, fields⟩ : Run κ σ ν Unit)

/-- Answers the requests of code at a call. -/
def answer : (r : JoinPointRequest κ σ ν) → AtCall κ σ ν r.Answer
  | .outer request => liftM (below request)
  | .view => get
  | .setArguments arguments => modify fun jp => { jp with arguments := arguments }
  | .setAttribute name value => modify fun jp =>
      { jp with attributes := Assoc.put name value jp.attributes }

/-- Answers the requests of around advice that stands before a position of the chain. -/
def answerAround (position : Nat) (proceed : AtCall κ σ ν Result) :
    (r : AroundRequest κ σ ν) → AtCall κ σ ν r.Answer
  | .inner request => answer below request
  | .proceed => proceed
  | .position => return position

/-- Ends a level of the call with its result. -/
def settle (result : Result) : AtCall κ σ ν Result := do
  enterPhase (Phase.ofResult result)
  return result

/-- Reaches an object with the arguments as they are now. -/
def reach (target : TargetId) (phase : Option Phase) : AtCall κ σ ν Result := do
  let jp ← get
  act (.reached · target jp.arguments phase)
  liftM (Run.callTarget host below target jp.method jp.arguments)

/-- Reaches the target at the end of the chain, if there is one. -/
def reachTarget : AtCall κ σ ν Result := do
  let jp ← get
  match jp.target with
  | none => settle (.error (.noTarget jp.method.text))
  | some target =>
    enterPhase .targetInvoked
    settle (← reach host below target (some (← get).phase))

/-- Whether a method belongs to one of several introduced contracts. -/
def isIntroduced (interfaces : List TypeInfo) (m : MethodSignature) : Bool :=
  !m.declaringType.isRoot && interfaces.any (·.isAssignableTo m.declaringType)

/-- Serves an introduced method by a delegate; the proxy stands in for a delegate that returns itself.
Left out is a proxy that is gone by then, for which the delegate itself would be returned. -/
def delegateTo (delegate : TargetId) : AtCall κ σ ν Result := do
  match ← reach host below delegate none with
  | .error e => return .error e
  | .ok value =>
    if value = some (.target delegate) then
      match (← get).proxy with
      | some p => return .ok (some (.proxy p))
      | none => return .ok value
    else return .ok value

/-- Proceeds again while the rest of the chain fails, as long as attempts remain. -/
def retry (limit : Nat) (proceed : AtCall κ σ ν Result) : Nat → Nat → AtCall κ σ ν Result
  | _, 0 => proceed
  | attempt, remaining + 1 => do
    match ← proceed with
    | .ok value => return .ok value
    | .error e =>
      if e.isFailure then
        log .warn ("Attempt " ++ toString attempt ++ "/" ++ toString limit ++ " of "
          ++ (← get).method.text ++ " failed: " ++ e.display) []
        retry limit proceed (attempt + 1) remaining
      else return .error e

/--
The text of elapsed times in log lines.  How long a call takes is not part of its meaning here, so
the figures are left open.
-/
def elapsedText : String := "_"

/-- Logs entry and exit of a call. -/
def logCall (withArguments : Bool) (proceed : AtCall κ σ ν Result) : AtCall κ σ ν Result := do
  let jp ← get
  let signature := jp.method.text
  log .info ("→ Entering: " ++ signature ++
    (if withArguments then " with " ++ toString jp.arguments.length ++ " argument(s)" else "")) []
  let result ← proceed
  match result with
  | .ok _ => log .info ("← Exiting: " ++ signature ++ " (took " ++ elapsedText ++ ")") []
  | .error e =>
    log .info ("← Exiting: " ++ signature ++ " with error after " ++ elapsedText ++ ": " ++ e.display) []
  return result

/--
Logs the time of a call against a threshold.  A call is taken to last longer than no time and less
than any positive threshold.
-/
def timeCall (threshold : Nat) (proceed : AtCall κ σ ν Result) : AtCall κ σ ν Result := do
  let signature := (← get).method.text
  let result ← proceed
  if threshold = 0 then
    log .warn ("⚠️ Slow method detected: " ++ signature ++ " took " ++ elapsedText ++ "ms (threshold: "
      ++ toString threshold ++ "ms)") []
  else log .debug (signature ++ " took " ++ elapsedText ++ "µs") []
  return result

/-- Logs the error of a call with what lies behind it. -/
def logError (proceed : AtCall κ σ ν Result) : AtCall κ σ ν Result := do
  let signature := (← get).method.text
  let result ← proceed
  match result with
  | .ok _ => return result
  | .error e =>
    let info := ErrorInfo.ofError e
    log .error ("❌ Exception in " ++ signature ++ ": " ++ info.fullDescription)
      [("error_type", info.errorType)]
    return result

/-- Runs an interceptor that stands before a position of the chain. -/
def intercept (action : Action κ) (position : Nat) (proceed : AtCall κ σ ν Result) :
    AtCall κ σ ν Result := do
  match action with
  | .scripted code => (host.around code).run (answerAround below position proceed)
  | .before code =>
    match ← (host.before code).run (answer below) with
    | .error e => return .error e
    | .ok () => proceed
  | .afterReturning code =>
    match ← proceed with
    | .error e => return .error e
    | .ok value =>
      match ← (host.afterReturning code value).run (answer below) with
      | .error e => return .error e
      | .ok () => return .ok value
  | .afterThrowing code =>
    match ← proceed with
    | .ok value => return .ok value
    | .error e =>
      match ← (host.afterThrowing code e).run (answer below) with
      | .error replacement => return .error replacement
      | .ok () => return .error e
  | .after code =>
    let result ← proceed
    let after ← (host.after code).run (answer below)
    match result, after with
    | .error e, _ => return .error e
    | .ok _, .error e => return .error e
    | .ok value, .ok () => return .ok value
  | .delegate target interfaces =>
    if isIntroduced interfaces (← get).method then delegateTo host below target else proceed
  | .logging withArguments => logCall withArguments proceed
  | .performance threshold => timeCall threshold proceed
  | .exceptionLogging => logError proceed
  | .retry limit => retry (max limit 1) proceed 1 (limit - 1)

/-- Ends the rest of a chain for the one who asked for it: undeclared checked failures are wrapped. -/
def translated (index : Nat) (rest : AtCall κ σ ν Result) : AtCall κ σ ν Result := do
  let result := translateUndeclared (← get).method (← rest)
  let phase := (← get).phase
  act (.returned · index result.isOk phase)
  return result

/-- Runs the rest of a chain, which begins at a position. -/
def proceedFrom : Chain κ → Nat → AtCall κ σ ν Result
  | [], _ => reachTarget host below
  | entry :: rest, index => do
    let jp ← get
    if entry.admits jp.method jp.targetType jp.arguments then
      enterPhase (.running index)
      let phase := (← get).phase
      act (.entered · index phase)
      settle (← intercept host below entry.interceptor.action (index + 1)
        (translated (index + 1) (proceedFrom rest (index + 1))))
    else
      log .trace ("Dynamic matcher rejected " ++ jp.method.text ++ " at chain position "
        ++ toString index ++ ", skipping") []
      proceedFrom rest (index + 1)

/-- Runs a call through its whole chain. -/
def invoke : AtCall κ σ ν Result := do
  translated 0 (proceedFrom host below (← get).chain 0)

end AtCall

/-- Runs a call through its chain, as a new call of the run. -/
def Run.runJoinPoint {κ σ ν : Type} (host : Host κ σ ν) (below : Handler κ σ ν) (jp : JoinPoint κ) :
    Run κ σ ν (Result × JoinPoint κ) := do
  let call ← beginCall
  (AtCall.invoke host below).run { jp with call := call }

end Weaving
