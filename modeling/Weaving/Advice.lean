import Weaving.Failure

/-
Advice: what is to be done around calls, under a name.  Around advice is an interceptor, which
decides itself whether and how often the call proceeds.  The other kinds act at one point of a call
and are turned into interceptors by adapters.

Code of the user's is named by values of a type `κ`; what such code does is said where a run begins.
-/
namespace Weaving

/-- The point of a call at which advice acts. -/
inductive AdviceType where
  /-- Around the call. -/
  | around
  /-- Before it. -/
  | before
  /-- After it returned. -/
  | afterReturning
  /-- After it failed. -/
  | afterThrowing
  /-- After it in any case. -/
  | after
  deriving DecidableEq, Inhabited

/-- The name of a point of a call. -/
def AdviceType.name : AdviceType → String
  | .around => "Around"
  | .before => "Before"
  | .afterReturning => "AfterReturning"
  | .afterThrowing => "AfterThrowing"
  | .after => "After"

/-- What an interceptor does when a call reaches it. -/
inductive Action (κ : Type) where
  /-- Runs code of the user's, which may proceed as it likes. -/
  | scripted (code : κ)
  /-- Runs code first; an error of the code ends the call. -/
  | before (code : κ)
  /-- Runs code on the value of a call that succeeded; an error of the code replaces the value. -/
  | afterReturning (code : κ)
  /-- Runs code on the error of a call that failed; an error of the code replaces the error. -/
  | afterThrowing (code : κ)
  /-- Runs code after the call; an error of the code replaces a value and never an error. -/
  | after (code : κ)
  /-- Hands the methods of introduced contracts to a delegate. -/
  | delegate (target : TargetId) (interfaces : List TypeInfo)
  /-- Logs entry and exit, with the number of arguments if asked. -/
  | logging (withArguments : Bool)
  /-- Logs the time a call takes against a threshold in milliseconds. -/
  | performance (threshold : Nat)
  /-- Logs errors with what lies behind them. -/
  | exceptionLogging
  /-- Runs the rest of the chain again while it fails, up to a number of times. -/
  | retry (limit : Nat)

/-- An interceptor, with an identity if a user made it. -/
structure Interceptor (κ : Type) where
  /-- What tells the interceptor from others; adapters make interceptors without identity. -/
  identity : Option Nat
  /-- What it does. -/
  action : Action κ

/-- The forms of advice. -/
inductive AdviceKind (κ : Type) where
  /-- Around advice is its interceptor. -/
  | around (interceptor : Interceptor κ)
  /-- Code to run before a call. -/
  | before (code : κ)
  /-- Code to run after a call returned. -/
  | afterReturning (code : κ)
  /-- Code to run after a call failed. -/
  | afterThrowing (code : κ)
  /-- Code to run after a call in any case. -/
  | after (code : κ)
  /-- A form that only adapters of the user's understand. -/
  | custom (type : AdviceType) (payload : Value)

/-- Advice under a name. -/
structure Advice (κ : Type) where
  /-- The name; with the type it is the identity of the advice. -/
  name : String
  /-- The form. -/
  kind : AdviceKind κ

namespace Advice

variable {κ : Type}

/-- The point of a call at which advice acts. -/
def type (a : Advice κ) : AdviceType :=
  match a.kind with
  | .around _ => .around
  | .before _ => .before
  | .afterReturning _ => .afterReturning
  | .afterThrowing _ => .afterThrowing
  | .after _ => .after
  | .custom type _ => type

/-- The interceptor of around advice. -/
def interceptor? (a : Advice κ) : Option (Interceptor κ) :=
  match a.kind with
  | .around interceptor => some interceptor
  | _ => none

/-- The one-line description of advice. -/
def inspect (a : Advice κ) : String :=
  Inspect.record "Advice" [("name", Inspect.quoted a.name), ("type", a.type.name)]

end Advice

end Weaving
