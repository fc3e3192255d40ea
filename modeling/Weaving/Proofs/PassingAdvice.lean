import Weaving.Proofs.Transparency
import Weaving.Proofs.Turns

/-
Advice that passes a call on.  Such advice proceeds once, whatever it is told on the way, leaves the
arguments as they are and hands on the result it gets.
-/
namespace Weaving

variable {κ σ ν α β : Type}

/-- Whether a request leaves the arguments of its call as they are. -/
def JoinPointRequest.KeepsArguments : JoinPointRequest κ σ ν → Prop
  | .setArguments _ => False
  | _ => True

/-- However its requests are answered, a program ends with such an answer. -/
def Program.Gives {Req : Type} {Ans : Req → Type} (wanted : α → Prop) : Program Req Ans α → Prop
  | .done a => wanted a
  | .ask _ resume => ∀ answer, (resume answer).Gives wanted

/-- Code at a call that leaves the arguments as they are and always succeeds. -/
def JoinPointCode.Succeeds (code : JoinPointCode κ σ ν (Except AopError Unit)) : Prop :=
  code.Asks JoinPointRequest.KeepsArguments ∧ code.Gives (· = .ok ())

namespace AroundCode

/-- Around advice that does not proceed any more and ends with a result. -/
def Returns (result : Result) : AroundCode κ σ ν → Prop
  | .done own => own = result
  | .ask (.inner request) resume =>
    request.KeepsArguments ∧ ∀ answer, Returns result (resume answer)
  | .ask .proceed _ => False
  | .ask .position resume => ∀ position : Nat, Returns result (resume position)

/-- Around advice that proceeds once and ends with the result. -/
def PassesOn : AroundCode κ σ ν → Prop
  | .done _ => False
  | .ask (.inner request) resume => request.KeepsArguments ∧ ∀ answer, PassesOn (resume answer)
  | .ask .proceed resume => ∀ result : Result, Returns result (resume result)
  | .ask .position resume => ∀ position : Nat, PassesOn (resume position)

end AroundCode

/-- What an interceptor does passes the calls of a method on. -/
def Action.PassesOn (host : Host κ σ ν) (m : MethodSignature) : Action κ → Prop
  | .scripted code => AroundCode.PassesOn (host.around code)
  | .before code => JoinPointCode.Succeeds (host.before code)
  | .afterReturning code => ∀ value, JoinPointCode.Succeeds (host.afterReturning code value)
  | .afterThrowing code => ∀ e, JoinPointCode.Succeeds (host.afterThrowing code e)
  | .after code => JoinPointCode.Succeeds (host.after code)
  | .delegate _ interfaces => AtCall.isIntroduced interfaces m = false
  | .logging _ => True
  | .performance _ => True
  | .exceptionLogging => True
  | .retry limit => limit ≤ 1

/-- A chain whose interceptors all pass the calls of a method on. -/
def Chain.PassesOn (host : Host κ σ ν) (m : MethodSignature) (chain : Chain κ) : Prop :=
  ∀ entry ∈ chain, entry.interceptor.action.PassesOn host m

/-- Whether an act is that of reaching an object. -/
def Act.isReaching : Act → Bool
  | .reached _ _ _ _ => true
  | _ => false

namespace AtCall

variable {below : Handler κ σ ν} {jp jp' : JoinPoint κ} {w w' : World κ σ ν}

theorem run_bind_eq_some {x : AtCall κ σ ν α} {f : α → AtCall κ σ ν β} {b : β} :
    ((x >>= f).run jp).run w = some ((b, jp'), w') ↔
      ∃ a jp₁ w₁, (x.run jp).run w = some ((a, jp₁), w₁) ∧
        ((f a).run jp₁).run w₁ = some ((b, jp'), w') := by
  rw [StateT.run_bind, Run.run_bind_eq_some]
  constructor
  · rintro ⟨⟨a, jp₁⟩, w₁, hx, hf⟩
    exact ⟨a, jp₁, w₁, hx, hf⟩
  · rintro ⟨a, jp₁, w₁, hx, hf⟩
    exact ⟨(a, jp₁), w₁, hx, hf⟩

/-- Answering such a request keeps the arguments. -/
theorem answer_keeps {r : JoinPointRequest κ σ ν} {a : r.Answer} (hkeeps : r.KeepsArguments)
    (h : ((answer below r).run jp).run w = some ((a, jp'), w')) : jp'.arguments = jp.arguments := by
  cases r with
  | outer request =>
      change (below request >>= fun b => (pure (b, jp) : Run κ σ ν _)).run w = some ((a, jp'), w')
        at h
      obtain ⟨b, v, _, hend⟩ := Run.run_bind_eq_some.mp h
      cases hend
      rfl
  | view =>
      cases h
      rfl
  | setArguments arguments => exact hkeeps.elim
  | setAttribute name value =>
      cases h
      rfl

/-- So does code that makes only such requests. -/
theorem code_keeps {code : JoinPointCode κ σ ν α} {a : α}
    (hasks : code.Asks JoinPointRequest.KeepsArguments)
    (h : ((code.run (answer below)).run jp).run w = some ((a, jp'), w')) :
    jp'.arguments = jp.arguments := by
  induction code generalizing jp w with
  | done b =>
      cases h
      rfl
  | ask r resume ih =>
      obtain ⟨hkeeps, hlater⟩ := hasks
      obtain ⟨b, jp₁, w₁, hanswer, hrest⟩ := run_bind_eq_some.mp h
      exact (ih b (hlater b) hrest).trans (answer_keeps hkeeps hanswer)

theorem code_gives {code : JoinPointCode κ σ ν α} (wanted : α → Prop) {a : α}
    (hgives : code.Gives wanted)
    (h : ((code.run (answer below)).run jp).run w = some ((a, jp'), w')) : wanted a := by
  induction code generalizing jp w with
  | done b =>
      cases h
      exact hgives
  | ask r resume ih =>
      obtain ⟨b, jp₁, w₁, _, hrest⟩ := run_bind_eq_some.mp h
      exact ih b (hgives b) hrest

/-- A translated result is not translated again. -/
theorem translateUndeclared_idem (m : MethodSignature) (own : Result) :
    translateUndeclared m (translateUndeclared m own) = translateUndeclared m own :=
  (transparent_translateUndeclared m own).translateUndeclared_eq

end AtCall

end Weaving
