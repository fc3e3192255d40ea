import Weaving.Access
import Weaving.Pattern.Regex
import Weaving.Proxy.Settings
import Weaving.Run.Answers

/-
A demonstration: a greeter behind a proxy that announces, logs, retries and times its calls and adds
a contract for audits.  `Demo.run` says for an environment what the program prints and how it ends.
-/
namespace Weaving.Demo

/-- The pieces of code of the demonstration. -/
inductive Part where
  /-- The advice that announces a call. -/
  | announce
  /-- The methods of the greeter. -/
  | greeter
  /-- The methods of the audit log. -/
  | auditLog
  deriving DecidableEq

/-- What the greeter remembers. -/
structure Counters where
  /-- The number of greetings given. -/
  greetings : Nat := 0
  /-- The number of calls of the greeting that fails at first. -/
  flakyCalls : Nat := 0

/-- Code of the demonstration; its notes are the lines it prints. -/
abbrev Play (α : Type) := Code Part Counters String α

/-- Makes a request. -/
def ask (r : Request Part Counters String) : Play r.Answer := Program.request r

/-- Makes a request at a call. -/
def askAt (r : JoinPointRequest Part Counters String) :
    JoinPointCode Part Counters String r.Answer :=
  Program.request r

/-! ### Types and methods -/

/-- The contract of greeters, and the types declared so far. -/
def declaredGreeter : TypeInfo × Universe :=
  Universe.initial.declare { name := "Greeter", contract := true }

/-- The contract of greeters. -/
def greeterType : TypeInfo := declaredGreeter.1

/-- The type of the greeter, and the types declared so far. -/
def declaredFriendly : TypeInfo × Universe :=
  declaredGreeter.2.declare { name := "FriendlyGreeter", supertypes := [greeterType] }

/-- The type of the greeter. -/
def friendlyType : TypeInfo := declaredFriendly.1

/-- The type of strings, and the types declared so far. -/
def declaredString : TypeInfo × Universe := declaredFriendly.2.declare { name := "String" }

/-- The type of strings. -/
def stringType : TypeInfo := declaredString.1

/-- The contract of audits. -/
def auditableType : TypeInfo :=
  (declaredString.2.declare { name := "Auditable", contract := true }).1

/-- Greets someone. -/
def greet : MethodSignature :=
  { declaringType := greeterType, name := "greet", parameterTypes := ["String"],
    returnType := .reference stringType }

/-- Greets someone, but not at first. -/
def flakyGreet : MethodSignature := { greet with name := "flaky_greet" }

/-- Counts the greetings given. -/
def greetingCount : MethodSignature :=
  { declaringType := greeterType, name := "greeting_count", returnType := .primitive "usize" }

/-- Returns the greeter itself. -/
def polite : MethodSignature :=
  { declaringType := greeterType, name := "polite", returnType := .reference greeterType }

/-- Tells how the greetings were. -/
def audit : MethodSignature :=
  { declaringType := auditableType, name := "audit", returnType := .reference stringType }

/-! ### The code behind the methods -/

/-- The name that a call is about. -/
def nameIn (arguments : List Value) : String := (arguments.head?.bind Value.text?).getD "stranger"

/-- Remembers one more greeting. -/
def countGreeting : Play Unit := do
  let c ← ask .recall
  ask (.remember { c with greetings := c.greetings + 1 })

/-- Tells behind which sort of proxy the code runs, and returns the greeter, unless no proxy is exposed. -/
def runPolite (self : TargetId) : Play Result := do
  match ← Code.exposed fun v => v.proxy?.isSome with
  | .error e => return .error e
  | .ok value =>
    let proxy ←
      match value.bind Value.proxy? with
      | some p => ask (.proxy p)
      | none => pure none
    let strategy := (proxy.map (·.strategy.name)).getD ""
    ask (.publish [⟨.info, "polite() running behind " ++ strategy ++ " proxy", []⟩])
    return .ok (some (.target self))

/-- The methods of the greeter. -/
def runGreeter (self : TargetId) (m : MethodSignature) (arguments : List Value) : Play Result := do
  let name := nameIn arguments
  if m.name = "greet" then
    countGreeting
    return .ok (some (.text ("Hello, " ++ name ++ "!")))
  else if m.name = "flaky_greet" then
    let c ← ask .recall
    ask (.remember { c with flakyCalls := c.flakyCalls + 1 })
    if c.flakyCalls < 2 then return .error (.raise "greeting service is warming up")
    else
      countGreeting
      return .ok (some (.text ("Hello at last, " ++ name ++ "!")))
  else if m.name = "greeting_count" then
    return .ok (some (.count (← ask .recall).greetings))
  else if m.name = "polite" then runPolite self
  else return .error (.raise ("FriendlyGreeter has no method " ++ m.name))

/-- The methods of the audit log. -/
def runAuditLog : Play Result := return .ok (some (.text "all greetings were polite"))

/-- The advice that announces a call. -/
def runAnnounce : JoinPointCode Part Counters String (Except AopError Unit) := do
  let jp ← askAt .view
  askAt (.outer (.publish [⟨.info, "About to call " ++ jp.method.text, []⟩]))
  return .ok ()

/-- The programs behind the pieces of code. -/
def host : Host Part Counters String where
  around _ := .done (.ok none)
  before _ := runAnnounce
  afterReturning _ _ := return .ok ()
  afterThrowing _ _ := return .ok ()
  after _ := return .ok ()
  target part self m arguments :=
    if part = .greeter then runGreeter self m arguments else runAuditLog
  make _ := return .error .proxyNotExposed
  acquire _ := return .ok none
  release _ _ := return .ok ()
  chain _ _ _ _ _ := return .ok []
  builder _ := return .ok []

/-! ### The program -/

/-- The document with the flags of the proxy. -/
def flagsDocument : String := "\n[proxy]\nexpose_proxy = true\nfrozen = true\n"

/-- The advisors of the proxy. -/
def advisors (auditLog : TargetId) : List (Advisor Part) :=
  [.pointcut (.ofExpression (.ofExecution .simple "* Greeter.*greet(..)")) ⟨"announce", .before .announce⟩,
   .unconditional ⟨"logging", .around ⟨some 0, .logging true⟩⟩,
   .pointcut (.named [.ofText .simple "flaky_*"]) ⟨"retry", .around ⟨some 1, .retry 3⟩⟩,
   .unconditional ⟨"performance", .around ⟨some 2, .performance 5⟩⟩,
   .delegating "audit" 3 auditLog [auditableType] .all]

/-- Code of the demonstration that may fail. -/
abbrev Trial (α : Type) := ExceptT AopError (Program (Request Part Counters String) Request.Answer) α

/-- Makes a request that cannot fail. -/
def request (r : Request Part Counters String) : Trial r.Answer := ExceptT.lift (ask r)

/-- Calls a method of a proxy. -/
def call (p : ProxyId) (m : MethodSignature) (arguments : List Value) : Trial (Option Value) :=
  ExceptT.mk (ask (.invoke p m arguments))

/-- Prints a line. -/
def print (line : String) : Trial Unit := request (.note line)

/-- The string that an object is, or the empty one. -/
def textOf (value : Option Value) : String := (value.bind Value.text?).getD ""

/-- The program, in an environment. -/
def program (environment : String → Option String) : Trial Unit := do
  print "🚀 Interpose AOP demo"
  print ""
  let (flags, lines) := (← ExceptT.mk (pure (Flags.ofDocument flagsDocument))).withOverrides environment
  request (.publish lines)
  let target ← request (.newTarget friendlyType .greeter)
  let auditLog ← request (.newTarget auditableType .auditLog)
  let source ← request (.newSource (.singleton target friendlyType))
  let p ← ExceptT.mk (ask (.makeProxy
    { ProxyFactory.forTarget source friendlyType with
      flags := flags
      methods := [greet, flakyGreet, greetingCount, polite]
      advisors := advisors auditLog }))
  let strategy := ((← request (.proxy p)).map (·.strategy.name)).getD ""
  print ("📦 Proxy strategy: " ++ strategy)
  print ("👋 " ++ textOf (← call p greet [.text "Ada"]))
  print ("🔁 " ++ textOf (← call p flakyGreet [.text "Grace"]))
  match ← call p greetingCount [] with
  | some (.count n) => print ("🔢 Greetings so far: " ++ toString n)
  | _ => pure ()
  let same := (← call p polite []).bind Value.proxy?
  print ("🪞 polite() returned the proxy itself: " ++ Inspect.bool same.isSome)
  print ("📝 Audit: " ++ textOf (← call p audit []))
  print ""
  print ("✅ Target received " ++ toString (← request .recall).greetings ++ " greeting(s)")

/-- How the program ended. -/
structure Outcome where
  /-- The exit code: zero if nothing went wrong. -/
  code : Nat
  /-- The lines printed. -/
  printed : List String
  /-- The lines of the report about an error. -/
  reported : List String

/-- What lies behind an error, line by line; several causes are numbered. -/
def causeLines : List String → List String
  | [] => []
  | [cause] => ["", "Caused by:", "    " ++ cause]
  | causes => "" :: "Caused by:" :: causes.zipIdx.map fun (cause, i) => "    " ++ toString i ++ ": " ++ cause

/-- The report about an error that ends the program. -/
def report (e : AopError) : List String := ("Error: " ++ e.display) :: causeLines e.sources

/-- The lines that a run printed, in order. -/
def printedIn (trace : List (Event String)) : List String :=
  (trace.filterMap fun e =>
    match e with
    | .note line => some line
    | _ => none).reverse

/-- The depth to which the calls of the demonstration nest. -/
def depth : Nat := 3

/-- What the program prints in an environment, and how it ends. -/
def run (environment : String → Option String) : Option Outcome := do
  let (result, world) ← Run.code host depth (program environment).run (World.initial {})
  match result with
  | .ok () => return ⟨0, printedIn world.trace, []⟩
  | .error e => return ⟨1, printedIn world.trace, report e⟩

end Weaving.Demo
