/-
Programs as trees of requests.  A program is finished with an answer, or asks for something and goes
on with what it is told.  Code of the user's is given as such trees, so it can do to a run what its
requests allow and nothing else, and everything said about all programs holds of all user code.
-/
namespace Weaving

/-- A program that asks requests of type `Req`, each answered in `Ans`, and ends with an `α`. -/
inductive Program (Req : Type) (Ans : Req → Type) (α : Type) : Type where
  /-- The program is finished. -/
  | done (answer : α)
  /-- The program asks for something and goes on with the answer. -/
  | ask (request : Req) (resume : Ans request → Program Req Ans α)

namespace Program

variable {Req : Type} {Ans : Req → Type} {α β : Type}

/-- One program after another. -/
def bind : Program Req Ans α → (α → Program Req Ans β) → Program Req Ans β
  | done a, next => next a
  | ask request resume, next => ask request fun answer => (resume answer).bind next

instance : Monad (Program Req Ans) where
  pure := done
  bind := bind

instance [Inhabited α] : Inhabited (Program Req Ans α) := ⟨done default⟩

/-- The program that makes one request. -/
def request (r : Req) : Program Req Ans (Ans r) := ask r done

/-- Runs a program, each request being answered by `handle`. -/
def run {m : Type → Type} [Monad m] (handle : (r : Req) → m (Ans r)) : Program Req Ans α → m α
  | done a => pure a
  | ask r resume => do
    let answer ← handle r
    (resume answer).run handle

/-- The same program over a larger set of requests. -/
def embed {Req' : Type} {Ans' : Req' → Type} (inner : (r : Req) → Program Req' Ans' (Ans r)) :
    Program Req Ans α → Program Req' Ans' α
  | done a => done a
  | ask r resume => (inner r).bind fun answer => (resume answer).embed inner

theorem bind_eq (p : Program Req Ans α) (next : α → Program Req Ans β) : p >>= next = p.bind next :=
  rfl

theorem run_bind {m : Type → Type} [Monad m] [LawfulMonad m] (handle : (r : Req) → m (Ans r))
    (p : Program Req Ans α) (next : α → Program Req Ans β) :
    (p.bind next).run handle = p.run handle >>= fun a => (next a).run handle := by
  induction p with
  | done a => simp [bind, run]
  | ask r resume ih => simp [bind, run, ih]

end Program

end Weaving
