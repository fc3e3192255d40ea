import Mathlib.Logic.Relation
import Weaving.Access
import Weaving.Proofs.AgreementOfAnswers
import Weaving.Proofs.ConductOfAnswers

/-
What user code sees exposed.  Calls change what is exposed for their own time only, and otherwise
leave it to the requests that user code makes.  The calls under way form a stack, and beside it the
object exposed at the moment is redundant: it is the innermost proxy on the stack that its calls
expose, or what was exposed before the outermost call.  `stacked` answers requests from the stack and
never looks at what is exposed, and it cannot be told from the engine by user code that exposes
nothing itself.
-/
namespace Weaving

variable {κ σ ν α : Type} {host : Host κ σ ν}

/-- A call under way: its proxy, and whether the proxy's calls expose it. -/
structure Frame where
  proxy : ProxyId
  exposing : Bool

/-- What is seen under a stack of calls, innermost first. -/
def seen (before : Option Value) (stack : List Frame) : Option Value :=
  match stack.find? (·.exposing) with
  | some frame => some (.proxy frame.proxy)
  | none => before

@[simp] theorem seen_shown (before : Option Value) (p : ProxyId) (stack : List Frame) :
    seen before (⟨p, true⟩ :: stack) = some (.proxy p) := by
  simp [seen]

@[simp] theorem seen_hidden (before : Option Value) (p : ProxyId) (stack : List Frame) :
    seen before (⟨p, false⟩ :: stack) = seen before stack := by
  simp [seen]

namespace Run

section Slot

variable {below : Handler κ σ ν} {p : ProxyId} {m : MethodSignature} {arguments : List Value}
  {w w' : World κ σ ν} {result : Result}

end Slot

section Shifting

variable {below : Handler κ σ ν} {may : Request κ σ ν → Prop}

section Along

variable {S : Option Value → Option Value → Prop} (hrefl : ∀ value, S value value)
  (htrans : ∀ {before value after}, S before value → S value after → S before after)

include hrefl

include htrans

variable (hasks : host.Asks may)
  (hrequests : ∀ r, may r → Moves (InvImage S World.current) (below r))

include hasks hrequests

end Along

end Shifting

section Nested

end Nested

end Run

end Weaving
