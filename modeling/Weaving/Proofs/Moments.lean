import Weaving.Proofs.Cursor

/-
Calls from moment to moment.  A moment is a call as it is then, together with the world.  What an
interceptor does at a level of a call begins at the moment in which it is entered; its level ends by
settling the phase and by translating the result for the one who asked for it.
-/
namespace Weaving

variable {κ σ ν α β : Type}

/-- A call as it is at some time of a run, and the world at that time. -/
structure Moment (κ σ ν : Type) where
  /-- The call. -/
  joinPoint : JoinPoint κ
  /-- The world. -/
  world : World κ σ ν

theorem World.leads_record_act {host : Host κ σ ν} {allowed : Act → Prop} {w : World κ σ ν}
    {a : Act} (hallowed : allowed a) (hbegun : a.call < w.calls) :
    w.Leads host allowed (w.record (.act a)) :=
  (World.Step.recorded fun _ ha => by cases ha; exact ⟨hallowed, hbegun⟩).leads

namespace Moment

/-- The moment after the call has entered the interceptor at a position. -/
def entering (s : Moment κ σ ν) (index : Nat) : Moment κ σ ν :=
  ⟨{ s.joinPoint with phase := .running index },
    s.world.record (.act (.entered s.joinPoint.call index (.running index)))⟩

/-- The moment after a level that begins at a position has come to its own result. -/
def leaving (s : Moment κ σ ν) (index : Nat) (own : Result) : Moment κ σ ν :=
  ⟨{ s.joinPoint with phase := .ofResult own },
    s.world.record (.act (.returned s.joinPoint.call index own.isOk (.ofResult own)))⟩

/-- The moment after a line has been logged. -/
def logging (s : Moment κ σ ν) (line : LogLine) : Moment κ σ ν :=
  { s with world := s.world.record (.logged line) }

/-- At this moment a call of a certain number is under way. -/
structure During (s : Moment κ σ ν) (call : Nat) : Prop where
  number : s.joinPoint.call = call
  begun : call < s.world.calls

/-- What may become of a moment when only certain acts are recorded. -/
structure Leads (host : Host κ σ ν) (allowed : Act → Prop) (s s' : Moment κ σ ν) : Prop where
  continues : s.joinPoint.Continues s'.joinPoint
  world : s.world.Leads host allowed s'.world

variable {host : Host κ σ ν} {allowed : Act → Prop} {r s s' : Moment κ σ ν} {call : Nat}

theorem Leads.refl (s : Moment κ σ ν) : s.Leads host allowed s := ⟨.refl _, .refl _⟩

theorem Leads.trans (hrs : r.Leads host allowed s) (hss : s.Leads host allowed s') :
    r.Leads host allowed s' :=
  ⟨hrs.continues.trans hss.continues, hrs.world.trans hss.world⟩

theorem Leads.mono {more : Act → Prop} (h : s.Leads host allowed s')
    (hmono : ∀ a, allowed a → more a) : s.Leads host more s' :=
  ⟨h.continues, h.world.mono hmono⟩

theorem Leads.during (h : s.Leads host allowed s') (hs : s.During call) : s'.During call where
  number := h.continues.call.trans hs.number
  begun := Nat.lt_of_lt_of_le hs.begun h.world.later.calls

theorem entering_leads {index : Nat}
    (hallowed : allowed (.entered s.joinPoint.call index (.running index)))
    (hs : s.During call) : s.Leads host allowed (s.entering index) where
  continues := ⟨rfl, rfl, rfl, rfl, rfl, rfl⟩
  world := World.leads_record_act hallowed (hs.number ▸ hs.begun)

theorem leaving_leads {index : Nat} {own : Result}
    (hallowed : allowed (.returned s.joinPoint.call index own.isOk (.ofResult own)))
    (hs : s.During call) : s.Leads host allowed (s.leaving index own) where
  continues := ⟨rfl, rfl, rfl, rfl, rfl, rfl⟩
  world := World.leads_record_act hallowed (hs.number ▸ hs.begun)

theorem logging_leads (line : LogLine) : s.Leads host allowed (s.logging line) where
  continues := .refl _
  world := (World.Step.recorded fun _ ha => by cases ha).leads

end Moment

/-- The line that tells of an entry which does not admit a call. -/
def skippingLine (m : MethodSignature) (index : Nat) : LogLine :=
  ⟨.trace, "Dynamic matcher rejected " ++ m.text ++ " at chain position " ++ toString index
    ++ ", skipping", []⟩

/-- Wrapping a failure does not turn an error into a value. -/
theorem isOk_translateUndeclared (m : MethodSignature) (own : Result) :
    (translateUndeclared m own).isOk = own.isOk := by
  unfold translateUndeclared
  split
  · split
    · split
      · rfl
      · rfl
    · rfl
  · rfl

namespace AtCall

/-- A computation at a call begins at a moment and ends with an answer at another one. -/
def Ends (x : AtCall κ σ ν α) (s : Moment κ σ ν) (a : α) (s' : Moment κ σ ν) : Prop :=
  (x.run s.joinPoint).run s.world = some ((a, s'.joinPoint), s'.world)

variable {host : Host κ σ ν} {below : Handler κ σ ν} {s s' : Moment κ σ ν} {a b : α}
  {result : Result}

theorem ends_pure_iff : Ends (pure a : AtCall κ σ ν α) s b s' ↔ b = a ∧ s' = s := by
  obtain ⟨jp', w'⟩ := s'
  constructor
  · intro h
    cases h
    exact ⟨rfl, rfl⟩
  · rintro ⟨rfl, rfl⟩
    rfl

theorem ends_bind_iff {x : AtCall κ σ ν α} {f : α → AtCall κ σ ν β} {b : β} :
    Ends (x >>= f) s b s' ↔ ∃ a s₁, Ends x s a s₁ ∧ Ends (f a) s₁ b s' := by
  rw [Ends, StateT.run_bind, Run.run_bind_eq_some]
  constructor
  · rintro ⟨⟨a, jp₁⟩, w₁, hx, hf⟩
    exact ⟨a, ⟨jp₁, w₁⟩, hx, hf⟩
  · rintro ⟨a, s₁, hx, hf⟩
    exact ⟨(a, s₁.joinPoint), s₁.world, hx, hf⟩

/-- What follows on a result that may be an error begins after the one or the other. -/
theorem ends_bind_except_iff {ε : Type} {x : AtCall κ σ ν (Except ε α)}
    {f : Except ε α → AtCall κ σ ν β} {b : β} :
    Ends (x >>= f) s b s' ↔
      (∃ e s₁, Ends x s (.error e) s₁ ∧ Ends (f (.error e)) s₁ b s') ∨
        ∃ a s₁, Ends x s (.ok a) s₁ ∧ Ends (f (.ok a)) s₁ b s' := by
  rw [ends_bind_iff]
  constructor
  · rintro ⟨e | a, s₁, hx, hf⟩
    · exact .inl ⟨e, s₁, hx, hf⟩
    · exact .inr ⟨a, s₁, hx, hf⟩
  · rintro (⟨e, s₁, hx, hf⟩ | ⟨a, s₁, hx, hf⟩)
    · exact ⟨_, s₁, hx, hf⟩
    · exact ⟨_, s₁, hx, hf⟩

theorem ends_get_bind_iff {f : JoinPoint κ → AtCall κ σ ν α} :
    Ends (get >>= f) s a s' ↔ Ends (f s.joinPoint) s a s' := Iff.rfl

theorem ends_lift_iff {x : Run κ σ ν α} :
    Ends (liftM x : AtCall κ σ ν α) s a s' ↔
      x.run s.world = some (a, s'.world) ∧ s'.joinPoint = s.joinPoint := by
  obtain ⟨jp', w'⟩ := s'
  change (x >>= fun b => pure (b, s.joinPoint)).run s.world = some ((a, jp'), w') ↔ _
  rw [Run.run_bind_eq_some]
  constructor
  · rintro ⟨b, v, hrun, hend⟩
    cases hend
    exact ⟨hrun, rfl⟩
  · rintro ⟨hrun, rfl⟩
    exact ⟨a, w', hrun, rfl⟩

theorem ends_enterPhase_bind_iff {phase : Phase} {x : AtCall κ σ ν α} :
    Ends (enterPhase phase >>= fun _ => x) s a s' ↔
      Ends x { s with joinPoint.phase := phase } a s' := Iff.rfl

theorem ends_act_bind_iff {made : Nat → Act} {x : AtCall κ σ ν α} :
    Ends (act made >>= fun _ => x) s a s' ↔
      Ends x { s with world := s.world.record (.act (made s.joinPoint.call)) } a s' := Iff.rfl

/-- A level ends with its own result translated. -/
theorem ends_translated_iff {index : Nat} {x : AtCall κ σ ν Result} :
    Ends (translated index x) s result s' ↔ ∃ own s₁, Ends x s own s₁ ∧
      result = translateUndeclared s.joinPoint.method own ∧
      s' = { s₁ with world := s₁.world.record (.act (.returned s₁.joinPoint.call index own.isOk
        s₁.joinPoint.phase)) } := by
  obtain ⟨jp', w'⟩ := s'
  rw [translated, ends_get_bind_iff, ends_bind_iff]
  refine exists_congr fun own => exists_congr fun s₁ => and_congr_right fun _ => ?_
  rw [← isOk_translateUndeclared s.joinPoint.method own]
  constructor
  · intro h
    cases h
    exact ⟨rfl, rfl⟩
  · rintro ⟨rfl, hlast⟩
    cases hlast
    rfl

theorem ends_translated_settle_iff {index : Nat} {x : AtCall κ σ ν Result} :
    Ends (translated index (x >>= settle)) s result s' ↔ ∃ own s₁, Ends x s own s₁ ∧
      result = translateUndeclared s.joinPoint.method own ∧ s' = s₁.leaving index own := by
  rw [ends_translated_iff]
  constructor
  · rintro ⟨own, ⟨jp₂, w₂⟩, hsettled, hresult, hlast⟩
    obtain ⟨raw, s₁, hx, hsettle⟩ := ends_bind_iff.mp hsettled
    cases hsettle
    exact ⟨own, s₁, hx, hresult, hlast⟩
  · rintro ⟨own, s₁, hx, hresult, hlast⟩
    exact ⟨own, ⟨{ s₁.joinPoint with phase := .ofResult own }, s₁.world⟩,
      ends_bind_iff.mpr ⟨own, s₁, hx, rfl⟩, hresult, hlast⟩

/-- What the end of a chain comes to. -/
inductive TargetAnswers (host : Host κ σ ν) (below : Handler κ σ ν) (s : Moment κ σ ν) :
    Result → Moment κ σ ν → Prop where
  /-- There is no target. -/
  | missing (none : s.joinPoint.target = none) :
      TargetAnswers host below s (.error (.noTarget s.joinPoint.method.text))
        { s with joinPoint.phase := .failed }
  /-- The target is called once, with the arguments as they are. -/
  | reached {t : TargetId} {own : Result} {w' : World κ σ ν} (target : s.joinPoint.target = some t)
      (ran : (Run.callTarget host below t s.joinPoint.method s.joinPoint.arguments).run
        (s.world.record (.act (.reached s.joinPoint.call t s.joinPoint.arguments
          (some .targetInvoked)))) = some (own, w')) :
      TargetAnswers host below s own ⟨{ s.joinPoint with phase := .ofResult own }, w'⟩

theorem ends_reachTarget_iff :
    Ends (reachTarget host below) s result s' ↔ TargetAnswers host below s result s' := by
  obtain ⟨jp', w'⟩ := s'
  constructor
  · intro h
    rw [Ends] at h
    cases htarget : s.joinPoint.target with
    | none =>
        rw [reachTarget_run_none htarget] at h
        cases h
        exact .missing htarget
    | some t =>
        rw [reachTarget_run htarget] at h
        obtain ⟨_, v, hrecord, h⟩ := Run.run_bind_eq_some.mp h
        obtain ⟨r, v', hcalled, hend⟩ := Run.run_bind_eq_some.mp h
        cases hrecord
        cases hend
        exact .reached htarget hcalled
  · intro h
    cases h with
    | missing none =>
        rw [Ends, reachTarget_run_none none]
        rfl
    | reached target ran =>
        rw [Ends, reachTarget_run target]
        exact Run.run_bind_eq_some.mpr ⟨_, _, rfl, Run.run_bind_eq_some.mpr ⟨_, _, ran, rfl⟩⟩

/-- The end of a chain is in the phase that belongs to what it comes to. -/
theorem TargetAnswers.leaving (h : TargetAnswers host below s result s') (index : Nat) :
    s'.leaving index result = { s' with world := s'.world.record (.act (.returned s'.joinPoint.call
      index result.isOk s'.joinPoint.phase)) } := by
  cases h with
  | missing none => rfl
  | reached target ran => rfl

/-- A level that finds the chain at its end; the entries before were skipped. -/
theorem ends_nil_iff {level index : Nat} :
    Ends (translated level (proceedFrom host below [] index)) s result s' ↔
      ∃ own s₁, TargetAnswers host below s own s₁ ∧
        result = translateUndeclared s.joinPoint.method own ∧ s' = s₁.leaving level own := by
  rw [proceedFrom, ends_translated_iff]
  refine exists_congr fun own => exists_congr fun s₁ => ?_
  rw [ends_reachTarget_iff]
  refine and_congr_right fun hanswers => ?_
  rw [hanswers.leaving]

/-- An entry is entered at the moment before its interceptor runs. -/
theorem ends_enter_iff {entry : ChainEntry κ} {index : Nat} {proceed : AtCall κ σ ν Result} :
    Ends (enter host below entry index proceed) s result s' ↔
      Ends (intercept host below entry.interceptor.action (index + 1) proceed >>= settle)
        (s.entering index) result s' := by
  rw [enter, ends_enterPhase_bind_iff, ends_get_bind_iff, ends_act_bind_iff]
  rfl

theorem ends_translated_enter_iff {entry : ChainEntry κ} {level index : Nat}
    {proceed : AtCall κ σ ν Result} :
    Ends (translated level (enter host below entry index proceed)) s result s' ↔
      ∃ own s₁, Ends (intercept host below entry.interceptor.action (index + 1) proceed)
          (s.entering index) own s₁ ∧
        result = translateUndeclared s.joinPoint.method own ∧ s' = s₁.leaving level own := by
  rw [ends_translated_iff]
  simp only [ends_enter_iff]
  exact ends_translated_iff.symm.trans ends_translated_settle_iff

/-- An entry that admits the call is entered, and proceeds with the rest of the chain. -/
theorem ends_proceedFrom_of_admits {entry : ChainEntry κ} {rest : Chain κ} {index : Nat}
    (hadmits : entry.admits s.joinPoint.method s.joinPoint.targetType s.joinPoint.arguments =
      true) :
    Ends (proceedFrom host below (entry :: rest) index) s result s' ↔
      Ends (enter host below entry index
        (translated (index + 1) (proceedFrom host below rest (index + 1)))) s result s' := by
  rw [proceedFrom, ends_get_bind_iff, if_pos hadmits]
  rfl

/-- A level that finds an entry which admits the call. -/
theorem ends_cons_iff {entry : ChainEntry κ} {rest : Chain κ} {level index : Nat}
    (hadmits : entry.admits s.joinPoint.method s.joinPoint.targetType s.joinPoint.arguments =
      true) :
    Ends (translated level (proceedFrom host below (entry :: rest) index)) s result s' ↔
      ∃ own s₁, Ends (intercept host below entry.interceptor.action (index + 1)
          (translated (index + 1) (proceedFrom host below rest (index + 1))))
          (s.entering index) own s₁ ∧
        result = translateUndeclared s.joinPoint.method own ∧ s' = s₁.leaving level own := by
  rw [ends_translated_iff]
  simp only [ends_proceedFrom_of_admits hadmits]
  rw [← ends_translated_iff, ends_translated_enter_iff]

/-- An entry that does not admit the call is skipped, which is logged. -/
theorem ends_proceedFrom_of_rejects {entry : ChainEntry κ} {rest : Chain κ} {index : Nat}
    (hrejects : entry.admits s.joinPoint.method s.joinPoint.targetType s.joinPoint.arguments =
      false) :
    Ends (proceedFrom host below (entry :: rest) index) s result s' ↔
      Ends (proceedFrom host below rest (index + 1))
        (s.logging (skippingLine s.joinPoint.method index)) result s' := by
  rw [proceedFrom, ends_get_bind_iff, if_neg (Bool.not_eq_true _ ▸ hrejects)]
  rfl

theorem ends_skip_iff {entry : ChainEntry κ} {rest : Chain κ} {level index : Nat}
    (hrejects : entry.admits s.joinPoint.method s.joinPoint.targetType s.joinPoint.arguments =
      false) :
    Ends (translated level (proceedFrom host below (entry :: rest) index)) s result s' ↔
      Ends (translated level (proceedFrom host below rest (index + 1)))
        (s.logging (skippingLine s.joinPoint.method index)) result s' := by
  rw [ends_translated_iff]
  simp only [ends_proceedFrom_of_rejects hrejects]
  exact ends_translated_iff.symm

end AtCall

end Weaving
