import Weaving.Proofs.Likeness
import Weaving.Proofs.WorldSteps

/-
Sound computations.  A computation is sound in a world when it changes the world step by step,
recording no acts but those allowed, and when log lines make no difference to it.  Soundness is put
together along the structure of a computation; `Sound` says it of every world in which enough calls
have begun.
-/
namespace Weaving

variable {κ σ ν α β : Type}

namespace Run

theorem run_bind_eq_some {x : Run κ σ ν α} {f : α → Run κ σ ν β} {w w' : World κ σ ν} {b : β} :
    (x >>= f).run w = some (b, w') ↔
      ∃ a v, x.run w = some (a, v) ∧ (f a).run v = some (b, w') := by
  rw [StateT.run_bind]
  constructor
  · intro h
    obtain ⟨⟨a, v⟩, hx, hf⟩ := Option.bind_eq_some_iff.mp h
    exact ⟨a, v, hx, hf⟩
  · rintro ⟨a, v, hx, hf⟩
    exact Option.bind_eq_some_iff.mpr ⟨(a, v), hx, hf⟩

theorem get_bind_run (f : World κ σ ν → Run κ σ ν β) (w : World κ σ ν) :
    (get >>= f).run w = (f w).run w := rfl

theorem beginCall_bind_run (f : Nat → Run κ σ ν β) (w : World κ σ ν) :
    (beginCall >>= f).run w = (f w.calls).run { w with calls := w.calls + 1 } := rfl

/-- What comes after a computation that ended goes on from there. -/
theorem run_bind_of_eq_some {x : Run κ σ ν α} {f : α → Run κ σ ν β} {a : α}
    {w v : World κ σ ν} (h : x.run w = some (a, v)) : (x >>= f).run w = (f a).run v := by
  rw [StateT.run_bind, h]
  rfl

/-- Computations that come out alike and go on alike come out alike in the end. -/
theorem Alike.bind {x y : Run κ σ ν α} {f g : α → Run κ σ ν β} {w v : World κ σ ν}
    (hxy : Alike (x.run w) (y.run v))
    (hfg : ∀ a w' v', x.run w = some (a, w') → w'.Alike v' → Alike ((f a).run w') ((g a).run v')) :
    Alike ((x >>= f).run w) ((y >>= g).run v) := by
  rw [StateT.run_bind, StateT.run_bind]
  cases hx : x.run w with
  | none =>
      rw [hx] at hxy
      cases hy : y.run v with
      | none => exact .none
      | some q =>
          rw [hy] at hxy
          cases hxy
  | some p =>
      rw [hx] at hxy
      cases hy : y.run v with
      | none =>
          rw [hy] at hxy
          cases hxy
      | some q =>
          rw [hy] at hxy
          cases hxy with
          | some hpq =>
              obtain ⟨a, w'⟩ := p
              obtain ⟨b, v'⟩ := q
              obtain ⟨rfl, halike⟩ := hpq
              exact hfg a w' v' hx halike

/-- What the engine guarantees of a computation that begins in a world. -/
structure SoundAt (host : Host κ σ ν) (allowed : Act → Prop) (x : Run κ σ ν α)
    (w : World κ σ ν) : Prop where
  /-- It changes the world step by step. -/
  leads : ∀ {a w'}, x.run w = some (a, w') → w.Leads host allowed w'
  /-- Log lines make no difference to it. -/
  blind : ∀ {v}, w.Alike v → Alike (x.run w) (x.run v)

variable {host : Host κ σ ν} {allowed : Act → Prop}

namespace SoundAt

theorem pure (a : α) (w : World κ σ ν) :
    SoundAt host allowed (Pure.pure a : Run κ σ ν α) w where
  leads h := by
    cases h
    exact .refl w
  blind h := .some ⟨rfl, h⟩

theorem bind {x : Run κ σ ν α} {f : α → Run κ σ ν β} {w : World κ σ ν}
    (hx : SoundAt host allowed x w)
    (hf : ∀ a w', x.run w = some (a, w') → SoundAt host allowed (f a) w') :
    SoundAt host allowed (x >>= f) w where
  leads h := by
    obtain ⟨a, v, hv, hw⟩ := run_bind_eq_some.mp h
    exact (hx.leads hv).trans ((hf a v hv).leads hw)
  blind h := (hx.blind h).bind fun a w' _ hw' halike => (hf a w' hw').blind halike

/-- Looking at the world is sound where nothing is made of its trace. -/
theorem get_bind {f : World κ σ ν → Run κ σ ν β} {w : World κ σ ν}
    (hf : SoundAt host allowed (f w) w) (same : ∀ trace, f (w.withTrace trace) = f w) :
    SoundAt host allowed (get >>= f) w where
  leads h := hf.leads h
  blind {v} h := by
    obtain ⟨trace, rfl, _⟩ := h.exists_trace
    change Alike ((f w).run w) ((f (w.withTrace trace)).run (w.withTrace trace))
    rw [same]
    exact hf.blind h

theorem modify {change : World κ σ ν → World κ σ ν} {w : World κ σ ν}
    (step : w.Step host allowed (change w))
    (blind : ∀ (u : World κ σ ν) trace, change (u.withTrace trace) = (change u).withTrace trace) :
    SoundAt host allowed (modify change : Run κ σ ν Unit) w where
  leads h := by
    cases h
    exact step.leads
  blind h := .some ⟨rfl, h.map change blind⟩

/-- Changing the world and telling what was there before. -/
theorem exchange {change : World κ σ ν → World κ σ ν} {read : World κ σ ν → α} {w : World κ σ ν}
    (step : w.Step host allowed (change w))
    (blind : ∀ (u : World κ σ ν) trace, change (u.withTrace trace) = (change u).withTrace trace)
    (same : ∀ trace, read (w.withTrace trace) = read w) :
    SoundAt host allowed
      (get >>= fun u => set (change u) >>= fun _ => Pure.pure (read u) : Run κ σ ν α) w where
  leads h := by
    cases h
    exact step.leads
  blind {v} h := by
    have hread : read w = read v := by
      obtain ⟨trace, rfl, _⟩ := h.exists_trace
      exact (same trace).symm
    exact .some ⟨hread, h.map change blind⟩

theorem record {e : Event ν} {w : World κ σ ν}
    (h : ∀ a, e = .act a → allowed a ∧ a.call < w.calls) :
    SoundAt host allowed (Run.record e) w where
  leads h' := by
    cases h'
    exact (World.Step.recorded h).leads
  blind h' := .some ⟨rfl, h'.record e⟩

theorem mono {few more : Act → Prop} (hmono : ∀ a, few a → more a) {x : Run κ σ ν α}
    {w : World κ σ ν} (h : SoundAt host few x w) : SoundAt host more x w where
  leads hx := (h.leads hx).mono hmono
  blind hv := h.blind hv

end SoundAt

/-- A computation is sound in all worlds in which so many calls have begun. -/
def Sound (host : Host κ σ ν) (allowed : Act → Prop) (begun : Nat) (x : Run κ σ ν α) : Prop :=
  ∀ w : World κ σ ν, begun ≤ w.calls → SoundAt host allowed x w

/-- A value that a computation can end with. -/
def Returns (x : Run κ σ ν α) (a : α) : Prop := ∃ w w', x.run w = some (a, w')

namespace Sound

variable {begun : Nat}

theorem pure (a : α) : Sound host allowed begun (Pure.pure a : Run κ σ ν α) :=
  fun w _ => SoundAt.pure a w

theorem bind_of_returns {x : Run κ σ ν α} {f : α → Run κ σ ν β} (hx : Sound host allowed begun x)
    (hf : ∀ a, Returns x a → Sound host allowed begun (f a)) :
    Sound host allowed begun (x >>= f) := by
  intro w hw
  refine (hx w hw).bind fun a w' ha => hf a ⟨w, w', ha⟩ w' ?_
  exact Nat.le_trans hw ((hx w hw).leads ha).later.calls

theorem bind {x : Run κ σ ν α} {f : α → Run κ σ ν β} (hx : Sound host allowed begun x)
    (hf : ∀ a, Sound host allowed begun (f a)) : Sound host allowed begun (x >>= f) :=
  hx.bind_of_returns fun a _ => hf a

theorem get_bind {f : World κ σ ν → Run κ σ ν β} (hf : ∀ w, Sound host allowed begun (f w))
    (same : ∀ w trace, f (w.withTrace trace) = f w) : Sound host allowed begun (get >>= f) :=
  fun w hw => (hf w w hw).get_bind (same w)

theorem modify {change : World κ σ ν → World κ σ ν}
    (step : ∀ w : World κ σ ν, w.Step host allowed (change w))
    (blind : ∀ (u : World κ σ ν) trace, change (u.withTrace trace) = (change u).withTrace trace) :
    Sound host allowed begun (modify change : Run κ σ ν Unit) :=
  fun w _ => SoundAt.modify (step w) blind

theorem exchange {change : World κ σ ν → World κ σ ν} {read : World κ σ ν → α}
    (step : ∀ w : World κ σ ν, w.Step host allowed (change w))
    (blind : ∀ (u : World κ σ ν) trace, change (u.withTrace trace) = (change u).withTrace trace)
    (same : ∀ (w : World κ σ ν) trace, read (w.withTrace trace) = read w) :
    Sound host allowed begun
      (get >>= fun u => set (change u) >>= fun _ => Pure.pure (read u) : Run κ σ ν α) :=
  fun w _ => SoundAt.exchange (step w) blind (same w)

/-- A call that begins has a number that no call had before. -/
theorem beginCall_bind {f : Nat → Run κ σ ν β}
    (hf : ∀ call, begun ≤ call → Sound host allowed (call + 1) (f call)) :
    Sound host allowed begun (beginCall >>= f) := by
  intro w hw
  have hbegin : SoundAt host allowed (beginCall : Run κ σ ν Nat) w :=
    .exchange .begun (fun _ _ => rfl) fun _ => rfl
  apply hbegin.bind
  intro call w' hcall
  cases hcall
  exact hf w.calls hw _ (Nat.le_refl _)

theorem beginCall_lt {f : Nat → Run κ σ ν β}
    (hf : ∀ call, Sound host (fun _ => True) (call + 1) (f call)) {b : β} {w w' : World κ σ ν}
    (h : (beginCall >>= f).run w = some (b, w')) : w.calls < w'.calls := by
  obtain ⟨call, v, hbegin, hrest⟩ := run_bind_eq_some.mp h
  cases hbegin
  exact ((hf w.calls _ (Nat.le_refl _)).leads hrest).later.calls

/-- What is no act may be recorded at any time. -/
theorem record {e : Event ν} (h : ∀ a, e ≠ .act a) :
    Sound host allowed begun (Run.record e : Run κ σ ν Unit) :=
  fun _ _ => SoundAt.record fun a ha => absurd ha (h a)

/-- An act may be recorded if it is allowed and its call has begun. -/
theorem record_act {a : Act} (ha : allowed a) (hbegun : a.call < begun) :
    Sound host allowed begun (Run.record (.act a) : Run κ σ ν Unit) := by
  intro w hw
  refine SoundAt.record fun b hb => ?_
  cases hb
  exact ⟨ha, Nat.lt_of_lt_of_le hbegun hw⟩

theorem weaken {few : Act → Prop} {x : Run κ σ ν α} {fewer : Nat} (h : Sound host few fewer x)
    (hmono : ∀ a, few a → allowed a) (hle : fewer ≤ begun) : Sound host allowed begun x :=
  fun w hw => (h w (Nat.le_trans hle hw)).mono hmono

theorem later {x : Run κ σ ν α} (hx : Sound host (fun _ => True) 0 x) {a : α}
    {w w' : World κ σ ν} (h : x.run w = some (a, w')) : w.Later w' :=
  ((hx w (Nat.zero_le _)).leads h).later

theorem alike {x : Run κ σ ν α} (hx : Sound host (fun _ => True) 0 x) {w v : World κ σ ν}
    (h : w.Alike v) : Alike (x.run w) (x.run v) :=
  (hx w (Nat.zero_le _)).blind h

theorem log (line : LogLine) : Sound host allowed begun (Run.log line : Run κ σ ν Unit) :=
  record fun _ h => by cases h

theorem trace (message : String) :
    Sound host allowed begun (Run.trace message : Run κ σ ν Unit) := log _

theorem logAll (lines : List LogLine) :
    Sound host allowed begun (Run.logAll lines : Run κ σ ν Unit) := by
  induction lines with
  | nil => exact pure ()
  | cons line rest ih => exact (log line).bind fun _ => ih

theorem recordQuestions (questions : List Question) :
    Sound host allowed begun (Run.recordQuestions questions : Run κ σ ν Unit) := by
  induction questions with
  | nil => exact pure ()
  | cons q rest ih => exact (record fun _ h => by cases h).bind fun _ => ih

theorem asking (x : Asking α) : Sound host allowed begun (Run.asking x : Run κ σ ν α) :=
  (recordQuestions _).bind fun _ => pure _

end Sound

end Run

/-- What stays the same about a call on its way. -/
structure JoinPoint.Continues (jp jp' : JoinPoint κ) : Prop where
  call : jp'.call = jp.call
  proxy : jp'.proxy = jp.proxy
  target : jp'.target = jp.target
  method : jp'.method = jp.method
  targetType : jp'.targetType = jp.targetType
  chain : jp'.chain = jp.chain

theorem JoinPoint.Continues.refl (jp : JoinPoint κ) : jp.Continues jp :=
  ⟨rfl, rfl, rfl, rfl, rfl, rfl⟩

theorem JoinPoint.Continues.trans {a b c : JoinPoint κ} (hab : a.Continues b)
    (hbc : b.Continues c) : a.Continues c where
  call := hbc.call.trans hab.call
  proxy := hbc.proxy.trans hab.proxy
  target := hbc.target.trans hab.target
  method := hbc.method.trans hab.method
  targetType := hbc.targetType.trans hab.targetType
  chain := hbc.chain.trans hab.chain

namespace AtCall

/-- A computation at a call with a number is sound once that call has begun, and leaves the call
the call it is. -/
def Sound (host : Host κ σ ν) (allowed : Act → Prop) (call : Nat) (x : AtCall κ σ ν α) : Prop :=
  ∀ jp : JoinPoint κ, jp.call = call →
    Run.Sound host allowed (call + 1) (x.run jp) ∧
      ∀ a jp', Run.Returns (x.run jp) (a, jp') → jp.Continues jp'

namespace Sound

variable {host : Host κ σ ν} {allowed : Act → Prop} {call : Nat}

theorem pure (a : α) : Sound host allowed call (Pure.pure a : AtCall κ σ ν α) := by
  intro jp _
  refine ⟨.pure (a, jp), ?_⟩
  rintro b jp' ⟨w, w', h⟩
  cases h
  exact .refl jp

theorem bind {x : AtCall κ σ ν α} {f : α → AtCall κ σ ν β} (hx : Sound host allowed call x)
    (hf : ∀ a, Sound host allowed call (f a)) : Sound host allowed call (x >>= f) := by
  intro jp hjp
  obtain ⟨hsound, hcontinues⟩ := hx jp hjp
  have hnext : ∀ a jp', Run.Returns (x.run jp) (a, jp') → jp'.call = call :=
    fun a jp' h => (hcontinues a jp' h).call.trans hjp
  constructor
  · rw [StateT.run_bind]
    exact hsound.bind_of_returns fun p hp => (hf p.1 p.2 (hnext p.1 p.2 hp)).1
  · rintro b jp'' ⟨w, w'', h⟩
    rw [StateT.run_bind] at h
    obtain ⟨⟨a, jp'⟩, v, hv, hw⟩ := Run.run_bind_eq_some.mp h
    have hfirst := hcontinues a jp' ⟨w, v, hv⟩
    exact hfirst.trans ((hf a jp' (hnext a jp' ⟨w, v, hv⟩)).2 b jp'' ⟨v, w'', hw⟩)

theorem get_bind {f : JoinPoint κ → AtCall κ σ ν β}
    (hf : ∀ jp, jp.call = call → Sound host allowed call (f jp)) :
    Sound host allowed call (get >>= f) :=
  fun jp hjp => hf jp hjp jp hjp

theorem modify {change : JoinPoint κ → JoinPoint κ}
    (h : ∀ jp : JoinPoint κ, jp.Continues (change jp)) :
    Sound host allowed call (modify change : AtCall κ σ ν Unit) := by
  intro jp _
  refine ⟨.pure ((), change jp), ?_⟩
  rintro b jp' ⟨w, w', hb⟩
  cases hb
  exact h jp

theorem lift {x : Run κ σ ν α} (hx : Run.Sound host allowed (call + 1) x) :
    Sound host allowed call (liftM x : AtCall κ σ ν α) := by
  intro jp _
  refine ⟨hx.bind fun a => .pure (a, jp), ?_⟩
  rintro b jp' ⟨w, w', h⟩
  change (x >>= fun a => Pure.pure (a, jp)).run w = _ at h
  obtain ⟨a, v, _, hv⟩ := Run.run_bind_eq_some.mp h
  cases hv
  exact .refl jp

end Sound

end AtCall

end Weaving
