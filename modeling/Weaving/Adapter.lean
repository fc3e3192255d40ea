import Weaving.Advice
import Weaving.Log.Line

/-
Adapters turn advice into interceptors.  A registry holds adapters in order; advice becomes its own
interceptor, if it has one, followed by one interceptor for each adapter that supports it.  Advice
that ends up with no interceptor at all is unknown.
-/
namespace Weaving

/-- Something that turns some advice into interceptors. -/
inductive Adapter (κ : Type) where
  /-- For before advice. -/
  | before
  /-- For after-returning advice. -/
  | afterReturning
  /-- For after-throwing advice. -/
  | throws
  /-- For after advice. -/
  | after
  /-- An adapter of the user's. -/
  | custom (name : String) (supports : Advice κ → Bool)
      (adapt : Advice κ → Except AopError (Interceptor κ))

namespace Adapter

variable {κ : Type}

/-- The name of an adapter. -/
def name : Adapter κ → String
  | .before => "BeforeAdviceAdapter"
  | .afterReturning => "AfterReturningAdviceAdapter"
  | .throws => "ThrowsAdviceAdapter"
  | .after => "AfterAdviceAdapter"
  | .custom name _ _ => name

/-- What a built-in adapter makes of a form of advice, if it supports it. -/
def builtInAction? : Adapter κ → AdviceKind κ → Option (Action κ)
  | .before, .before code => some (.before code)
  | .afterReturning, .afterReturning code => some (.afterReturning code)
  | .throws, .afterThrowing code => some (.afterThrowing code)
  | .after, .after code => some (.after code)
  | _, _ => none

/-- Whether an adapter supports advice. -/
def supports (adapter : Adapter κ) (a : Advice κ) : Bool :=
  match adapter with
  | .custom _ supports _ => supports a
  | builtIn => (builtIn.builtInAction? a.kind).isSome

/-- The interceptor an adapter makes of advice. -/
def adapt (adapter : Adapter κ) (a : Advice κ) : Except AopError (Interceptor κ) :=
  match adapter with
  | .custom _ _ adapt => adapt a
  | builtIn =>
    match builtIn.builtInAction? a.kind with
    | some action => .ok ⟨none, action⟩
    | none => .error (.unknownAdvice a.name)

/-- The log line that tells of an adapter's registration. -/
def registrationLine (adapter : Adapter κ) : LogLine :=
  ⟨.debug, "Registering advisor adapter: " ++ adapter.name, []⟩

/-- The built-in adapters. -/
def builtIn : List (Adapter κ) := [.before, .afterReturning, .throws, .after]

end Adapter

/-- Adapters in the order of registration. -/
structure AdapterRegistry (κ : Type) where
  /-- The adapters. -/
  adapters : List (Adapter κ)

namespace AdapterRegistry

variable {κ : Type}

/-- The registry without adapters, which takes around advice only. -/
def empty : AdapterRegistry κ := ⟨[]⟩

/-- The registry of the built-in adapters. -/
def standard : AdapterRegistry κ := ⟨Adapter.builtIn⟩

/-- A registry with one more adapter at its end. -/
def register (r : AdapterRegistry κ) (adapter : Adapter κ) : AdapterRegistry κ :=
  ⟨r.adapters ++ [adapter]⟩

/-- The log lines that tell how a registry came about. -/
def registrationLines (r : AdapterRegistry κ) : List LogLine :=
  r.adapters.map Adapter.registrationLine

/-- The interceptors that the supporting adapters make of advice, in order. -/
def adaptAll (a : Advice κ) : List (Adapter κ) → Except AopError (List (Interceptor κ))
  | [] => .ok []
  | adapter :: rest =>
    if adapter.supports a then
      match adapter.adapt a with
      | .error e => .error e
      | .ok interceptor =>
        match adaptAll a rest with
        | .error e => .error e
        | .ok later => .ok (interceptor :: later)
    else adaptAll a rest

/-- The interceptors of advice: its own, if it has one, then one for each supporting adapter. -/
def interceptors (r : AdapterRegistry κ) (a : Advice κ) : Except AopError (List (Interceptor κ)) :=
  match adaptAll a r.adapters with
  | .error e => .error e
  | .ok adapted =>
    let all := a.interceptor?.toList ++ adapted
    if all.isEmpty then .error (.unknownAdvice (a.name ++ " (" ++ a.type.name ++ ")")) else .ok all

/-- Whether a registry can make an interceptor of advice. -/
def supports (r : AdapterRegistry κ) (a : Advice κ) : Bool :=
  a.interceptor?.isSome || r.adapters.any (·.supports a)

/-- The one-line description of a registry. -/
def inspect (r : AdapterRegistry κ) : String :=
  Inspect.record "AdvisorAdapterRegistry" [("adapters", Inspect.quotedList (r.adapters.map Adapter.name))]

end AdapterRegistry

end Weaving
