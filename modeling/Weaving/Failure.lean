import Weaving.Method
import Weaving.Value

/-
What can go wrong.  `AopError` has one constructor per cause; failures raised by interceptors and
targets are carried as they are, with a kind and an error of the raiser's own, and that error may
itself hold an engine error.  `display` is the text of an error and `sources` the texts of what lies
behind it, outermost first.
-/
namespace Weaving

/-- Whether a failure has to be declared by the methods that raise it. -/
inductive FailureKind where
  /-- It has to, under this name. -/
  | checked (kind : String)
  /-- It passes everywhere. -/
  | unchecked
  deriving DecidableEq

/-- The one-line description of the kind of a failure. -/
def FailureKind.inspect : FailureKind → String
  | .checked kind => Inspect.tuple "Checked" [Inspect.quoted kind]
  | .unchecked => "Unchecked"

mutual

/-- An error of the proxy engine. -/
inductive AopError where
  /-- The configuration of a proxy is not valid. -/
  | configuration (detail : String)
  /-- A method with a basic return type ended without a value. -/
  | invocation (method returnType : String)
  /-- A checked failure left a method that does not declare it. -/
  | undeclared (method : String) (failure : Failure)
  /-- A failure of an interceptor or a target. -/
  | raised (failure : Failure)
  /-- No proxy is exposed. -/
  | proxyNotExposed
  /-- No adapter takes the advice. -/
  | unknownAdvice (advice : String)
  /-- The proxy exposes no contract with the method. -/
  | unsupportedMethod (method : String)
  /-- There is no target at the end of the chain. -/
  | noTarget (method : String)
  /-- The target source has no target to give. -/
  | targetUnavailable (source reason : String)

/-- A failure raised by an interceptor or a target. -/
inductive Failure where
  /-- A failure has a kind and the raiser's own error. -/
  | mk (kind : FailureKind) (cause : Cause)

/-- The raiser's own error. -/
inductive Cause where
  /-- A plain message. -/
  | message (text : String)
  /-- A message put in front of another cause. -/
  | context (text : String) (inner : Cause)
  /-- An engine error. -/
  | engine (error : AopError)

end

/-- The result of a call: an error, or an object that may be missing. -/
abbrev Result := Except AopError (Option Value)

instance : Inhabited AopError := ⟨.proxyNotExposed⟩

instance : Inhabited Cause := ⟨.message ""⟩

instance : Inhabited Failure := ⟨.mk .unchecked default⟩

namespace Failure

/-- Whether and under which name the failure has to be declared. -/
def kind : Failure → FailureKind
  | .mk kind _ => kind

/-- The raiser's own error. -/
def cause : Failure → Cause
  | .mk _ cause => cause

/-- The name under which the failure has to be declared. -/
def checkedKind (f : Failure) : Option String :=
  match f.kind with
  | .checked kind => some kind
  | .unchecked => none

/-- Whether the failure has to be declared. -/
def isChecked (f : Failure) : Bool := f.checkedKind.isSome

end Failure

mutual

/-- The text of an error. -/
def AopError.display : AopError → String
  | .configuration detail => "AOP configuration error: " ++ detail
  | .invocation method returnType =>
    "Null return value from advice does not match primitive return type \x60" ++ returnType ++
      "\x60 for: " ++ method
  | .undeclared method _ => "Undeclared checked failure thrown from " ++ method
  | .raised failure => failure.display
  | .proxyNotExposed =>
    "Cannot find current proxy: set 'expose_proxy' to true to make it available, and ensure the call happens on the thread handling the proxied invocation"
  | .unknownAdvice advice =>
    "Advice '" ++ advice ++ "' is not supported by any registered advisor adapter"
  | .unsupportedMethod method =>
    "Method " ++ method ++ " is not declared on any contract exposed by the proxy"
  | .noTarget method => "No target object available to invoke " ++ method
  | .targetUnavailable source reason =>
    "Target source '" ++ source ++ "' could not provide a target: " ++ reason

/-- The text of a failure: the name it is declared under, if any, then the raiser's text. -/
def Failure.display : Failure → String
  | .mk (.checked kind) cause => kind ++ ": " ++ cause.display
  | .mk .unchecked cause => cause.display

/-- The outermost text of a raiser's error. -/
def Cause.display : Cause → String
  | .message text => text
  | .context text _ => text
  | .engine error => error.display

end

mutual

/-- The texts behind an error, outermost first. -/
def AopError.sources : AopError → List String
  | .undeclared _ failure => failure.display :: failure.sources
  | .raised failure => failure.sources
  | _ => []

/-- The texts behind a failure; its own text stands for the raiser's outermost one. -/
def Failure.sources : Failure → List String
  | .mk _ cause => cause.sources

/-- The texts behind a raiser's error. -/
def Cause.sources : Cause → List String
  | .message _ => []
  | .context _ inner => inner.display :: inner.sources
  | .engine error => error.sources

end

namespace Cause

/-- A raiser's error from its messages, outermost first. -/
def ofMessages : List String → Cause
  | [] => .message ""
  | [text] => .message text
  | text :: rest => .context text (ofMessages rest)

end Cause

namespace AopError

/-- A failure that needs no declaration, with one message. -/
def raise (text : String) : AopError := .raised (.mk .unchecked (.message text))

/-- The failure inside an error, wrapped or not. -/
def failure? : AopError → Option Failure
  | .raised failure => some failure
  | .undeclared _ failure => some failure
  | _ => none

/-- Whether the error is a failure of an interceptor or a target, and not the engine's own. -/
def isFailure (e : AopError) : Bool := e.failure?.isSome

end AopError

/-- Wraps a checked failure that the method does not declare; everything else passes. -/
def translateUndeclared {α : Type} (m : MethodSignature) : Except AopError α → Except AopError α
  | .error (.raised failure) =>
    match failure.checkedKind with
    | some kind =>
      if m.declaresFailure kind then .error (.raised failure)
      else .error (.undeclared m.text failure)
    | none => .error (.raised failure)
  | result => result

/-- What is reported about an error. -/
structure ErrorInfo where
  /-- The text of the error. -/
  message : String
  /-- The sort of error. -/
  errorType : String
  /-- The name under which the failure inside would have to be declared. -/
  checkedKind : Option String
  /-- The texts behind the error, outermost first. -/
  sourceChain : List String

namespace ErrorInfo

/-- The report about an error. -/
def ofError (e : AopError) : ErrorInfo where
  message := e.display
  errorType :=
    match e with
    | .configuration _ => "ConfigurationError"
    | .invocation _ _ => "InvocationError"
    | .undeclared _ _ => "UndeclaredFailure"
    | .raised failure => if failure.isChecked then "CheckedFailure" else "UncheckedFailure"
    | .proxyNotExposed => "ProxyNotExposed"
    | .unknownAdvice _ => "UnknownAdvice"
    | .unsupportedMethod _ => "UnsupportedMethod"
    | .noTarget _ => "NoTarget"
    | .targetUnavailable _ _ => "TargetUnavailable"
  checkedKind := e.failure?.bind (·.checkedKind)
  sourceChain := e.sources

/-- The message, followed by everything behind it on lines of its own. -/
def fullDescription (info : ErrorInfo) : String :=
  if info.sourceChain.isEmpty then info.message
  else info.message ++ "\nCaused by:\n  " ++ String.intercalate "\n  " info.sourceChain

end ErrorInfo

end Weaving
