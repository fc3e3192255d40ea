import Weaving.World

/-
Worlds that differ in log lines only, and runs that come out alike.  Log lines are for readers of a
log; nothing in a run can look at them, so two alike worlds are the same for everything that runs in
them.
-/
namespace Weaving

variable {κ σ ν α : Type}

/-- Whether an event is a log line. -/
def Event.isLine : Event ν → Bool
  | .logged _ => true
  | _ => false

namespace World

/-- The world with another trace. -/
def withTrace (w : World κ σ ν) (trace : List (Event ν)) : World κ σ ν :=
  { w with trace := trace }

/-- What happened in a world, log lines left out, latest first. -/
def happened (w : World κ σ ν) : List (Event ν) := w.trace.filter (!·.isLine)

/-- Two worlds are alike when they differ in log lines only. -/
def Alike (w v : World κ σ ν) : Prop :=
  v = w.withTrace v.trace ∧ v.happened = w.happened

theorem Alike.refl (w : World κ σ ν) : w.Alike w := ⟨rfl, rfl⟩

theorem Alike.symm {w v : World κ σ ν} (h : w.Alike v) : v.Alike w := by
  obtain ⟨hv, hhappened⟩ := h
  refine ⟨?_, hhappened.symm⟩
  rw [hv]
  rfl

theorem Alike.trans {u v w : World κ σ ν} (huv : u.Alike v) (hvw : v.Alike w) : u.Alike w := by
  refine ⟨?_, hvw.2.trans huv.2⟩
  calc
    w = v.withTrace w.trace := hvw.1
    _ = (u.withTrace v.trace).withTrace w.trace := by rw [← huv.1]
    _ = u.withTrace w.trace := rfl

/-- An alike world is the same world with another trace. -/
theorem Alike.exists_trace {w v : World κ σ ν} (h : w.Alike v) :
    ∃ trace, v = w.withTrace trace ∧ trace.filter (!·.isLine) = w.happened :=
  ⟨v.trace, h.1, h.2⟩

theorem Alike.calls {w v : World κ σ ν} (h : w.Alike v) : v.calls = w.calls := by
  obtain ⟨trace, rfl, _⟩ := h.exists_trace
  rfl

theorem Alike.record {w v : World κ σ ν} (h : w.Alike v) (e : Event ν) :
    (w.record e).Alike (v.record e) := by
  obtain ⟨trace, rfl, htrace⟩ := h.exists_trace
  refine ⟨rfl, ?_⟩
  change (e :: trace).filter (!·.isLine) = (e :: w.trace).filter (!·.isLine)
  rw [List.filter_cons, List.filter_cons, htrace]
  rfl

/-- A log line makes no difference. -/
theorem alike_record_line (w : World κ σ ν) (line : LogLine) :
    w.Alike (w.record (.logged line)) := ⟨rfl, by simp [happened, record, Event.isLine]⟩

/-- A change that does not look at the trace takes alike worlds to alike worlds. -/
theorem Alike.map {w v : World κ σ ν} (h : w.Alike v) (change : World κ σ ν → World κ σ ν)
    (blind : ∀ (u : World κ σ ν) trace,
      change (u.withTrace trace) = (change u).withTrace trace) :
    (change w).Alike (change v) := by
  obtain ⟨trace, rfl, htrace⟩ := h.exists_trace
  have hkept : (change w).trace = w.trace := by
    have hself : change w = (change w).withTrace w.trace := blind w w.trace
    rw [hself]
    rfl
  rw [blind]
  refine ⟨rfl, ?_⟩
  change trace.filter (!·.isLine) = (change w).trace.filter (!·.isLine)
  rw [htrace, hkept]
  rfl

end World

/-- Two runs come out alike: both without an answer, or with one answer in alike worlds. -/
def Run.Alike (x y : Option (α × World κ σ ν)) : Prop :=
  Option.Rel (fun p q => p.1 = q.1 ∧ p.2.Alike q.2) x y

namespace Run

theorem Alike.refl (x : Option (α × World κ σ ν)) : Alike x x := by
  cases x with
  | none => exact .none
  | some p => exact .some ⟨rfl, World.Alike.refl p.2⟩

theorem Alike.symm {x y : Option (α × World κ σ ν)} (h : Alike x y) : Alike y x := by
  cases h with
  | none => exact .none
  | some hpq => exact .some ⟨hpq.1.symm, hpq.2.symm⟩

theorem Alike.trans {x y z : Option (α × World κ σ ν)} (hxy : Alike x y) (hyz : Alike y z) :
    Alike x z := by
  cases hxy with
  | none => exact hyz
  | some hpq =>
      cases hyz with
      | some hqr => exact .some ⟨hpq.1.trans hqr.1, hpq.2.trans hqr.2⟩

theorem Alike.eq_some {x : Option (α × World κ σ ν)} {a : α} {w : World κ σ ν}
    (h : Alike x (some (a, w))) : ∃ v, x = some (a, v) ∧ v.Alike w := by
  cases h with
  | @some p _ hpq =>
      obtain ⟨b, v⟩ := p
      obtain ⟨rfl, halike⟩ := hpq
      exact ⟨v, rfl, halike⟩

end Run

end Weaving
