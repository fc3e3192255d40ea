import Weaving.Proofs.Moments
import Weaving.Proofs.PassingAdvice

/-
Advice that forwards a call.  Such advice proceeds once, whatever it is told, and hands on the
result it gets; on the way it may do anything else, and may give the call other arguments.
-/
namespace Weaving

variable {κ σ ν α β : Type}

/-- Around advice that proceeds once and ends with the result. -/
def AroundCode.Forwards : AroundCode κ σ ν → Prop
  | .done _ => False
  | .ask (.inner _) resume => ∀ answer, Forwards (resume answer)
  | .ask .proceed resume => ∀ result : Result,
    (resume result).Asks (· ≠ AroundRequest.proceed) ∧ (resume result).Gives (· = result)
  | .ask .position resume => ∀ position : Nat, Forwards (resume position)

theorem AroundCode.Returns.gives {result : Result} {code : AroundCode κ σ ν}
    (h : AroundCode.Returns result code) :
    code.Asks (· ≠ AroundRequest.proceed) ∧ code.Gives (· = result) := by
  induction code with
  | done own => exact ⟨trivial, h⟩
  | ask r resume ih =>
      cases r with
      | inner request => exact ⟨⟨nofun, fun a => (ih a (h.2 a)).1⟩, fun a => (ih a (h.2 a)).2⟩
      | proceed => exact h.elim
      | position => exact ⟨⟨nofun, fun a => (ih a (h a)).1⟩, fun a => (ih a (h a)).2⟩

/-- Advice that passes calls on forwards them. -/
theorem AroundCode.PassesOn.forwards {code : AroundCode κ σ ν} (h : AroundCode.PassesOn code) :
    AroundCode.Forwards code := by
  induction code with
  | done own => exact h
  | ask r resume ih =>
      cases r with
      | inner request => exact fun a => ih a (h.2 a)
      | proceed => exact fun result => (h result).gives
      | position => exact fun position => ih position (h position)

/-- What an interceptor does forwards the calls of a method. -/
def Action.Forwards (host : Host κ σ ν) (m : MethodSignature) : Action κ → Prop
  | .scripted code => AroundCode.Forwards (host.around code)
  | .before code => (host.before code).Gives (· = .ok ())
  | .afterReturning code => ∀ value, (host.afterReturning code value).Gives (· = .ok ())
  | .afterThrowing code => ∀ e, (host.afterThrowing code e).Gives (· = .ok ())
  | .after code => (host.after code).Gives (· = .ok ())
  | .delegate _ interfaces => AtCall.isIntroduced interfaces m = false
  | .logging _ => True
  | .performance _ => True
  | .exceptionLogging => True
  | .retry limit => limit ≤ 1

theorem Action.PassesOn.forwards {host : Host κ σ ν} {m : MethodSignature} {action : Action κ}
    (h : action.PassesOn host m) : action.Forwards host m := by
  cases action with
  | scripted code => exact AroundCode.PassesOn.forwards h
  | before code => exact h.2
  | afterReturning code => exact fun value => (h value).2
  | afterThrowing code => exact fun e => (h e).2
  | after code => exact h.2
  | _ => exact h

namespace AtCall

variable {host : Host κ σ ν} {below : Handler κ σ ν} {call : Nat} {allowed : Act → Prop}
  {proceed x : AtCall κ σ ν Result} {s s' : Moment κ σ ν} {own : Result}

/-- What a sound computation at a call makes of a moment. -/
theorem Sound.leads {x : AtCall κ σ ν α} {a : α} (hx : Sound host allowed call x)
    (hs : s.During call) (h : Ends x s a s') : s.Leads host allowed s' := by
  obtain ⟨hsound, hcontinues⟩ := hx s.joinPoint hs.number
  exact ⟨hcontinues a s'.joinPoint ⟨s.world, s'.world, h⟩, (hsound s.world hs.begun).leads h⟩

/-- A computation does nothing of the call's own and can only end with one answer. -/
structure Settles (host : Host κ σ ν) (call : Nat) (x : AtCall κ σ ν α) (a : α) : Prop where
  ends : ∀ {s : Moment κ σ ν} {b : α} {s' : Moment κ σ ν}, s.During call → Ends x s b s' →
    b = a ∧ s.Leads host (call < ·.call) s'

/-- Whatever a computation does during a call, the arguments are the same when it ends. -/
def LeavesArguments (call : Nat) (x : AtCall κ σ ν α) : Prop :=
  ∀ {s : Moment κ σ ν} {a : α} {s' : Moment κ σ ν}, s.During call → Ends x s a s' →
    s'.joinPoint.arguments = s.joinPoint.arguments

/-- A computation lets the call proceed once, maybe with the arguments as they are, and ends with
the result; it does nothing else of the call's own. -/
structure HandsOn (host : Host κ σ ν) (call : Nat) (keeps : Prop)
    (proceed x : AtCall κ σ ν Result) : Prop where
  ends : ∀ {s : Moment κ σ ν} {own : Result} {s' : Moment κ σ ν}, s.During call → Ends x s own s' →
    ∃ s₁ s₂, s.Leads host (call < ·.call) s₁ ∧
      (keeps → s₁.joinPoint.arguments = s.joinPoint.arguments) ∧ Ends proceed s₁ own s₂ ∧
      s₂.Leads host (call < ·.call) s'

theorem Settles.pure (a : α) : Settles host call (Pure.pure a : AtCall κ σ ν α) a where
  ends _ h := by
    obtain ⟨rfl, rfl⟩ := ends_pure_iff.mp h
    exact ⟨rfl, .refl _⟩

theorem Settles.bind {x : AtCall κ σ ν α} {f : α → AtCall κ σ ν β} {b : β}
    (hx : Sound host (call < ·.call) call x) (hf : ∀ a, Settles host call (f a) b) :
    Settles host call (x >>= f) b where
  ends hs h := by
    obtain ⟨a, s₁, hfirst, hrest⟩ := ends_bind_iff.mp h
    have hleads := hx.leads hs hfirst
    obtain ⟨rfl, hrest⟩ := (hf a).ends (hleads.during hs) hrest
    exact ⟨rfl, hleads.trans hrest⟩

theorem HandsOn.itself {keeps : Prop} : HandsOn host call keeps proceed proceed where
  ends _ h := ⟨_, _, .refl _, fun _ => rfl, h, .refl _⟩

theorem HandsOn.get_bind {keeps : Prop} {f : JoinPoint κ → AtCall κ σ ν Result}
    (hf : ∀ jp, HandsOn host call keeps proceed (f jp)) :
    HandsOn host call keeps proceed (get >>= f) where
  ends hs h := (hf _).ends hs (ends_get_bind_iff.mp h)

theorem HandsOn.weaken {keeps keeps' : Prop} (h : HandsOn host call keeps proceed x)
    (hkeeps : keeps' → keeps) : HandsOn host call keeps' proceed x where
  ends hs hends := by
    obtain ⟨s₁, s₂, hbefore, hkept, hproceed, hafter⟩ := h.ends hs hends
    exact ⟨s₁, s₂, hbefore, fun hweaker => hkept (hkeeps hweaker), hproceed, hafter⟩

/-- What comes before the call proceeds; only the answers that there are matter for what follows. -/
theorem HandsOn.bind {keeps : Prop} {x : AtCall κ σ ν α} {f : α → AtCall κ σ ν Result}
    (hx : Sound host (call < ·.call) call x) (hleaves : keeps → LeavesArguments call x)
    (hf : ∀ {a s s'}, Ends x s a s' → HandsOn host call keeps proceed (f a)) :
    HandsOn host call keeps proceed (x >>= f) where
  ends hs h := by
    obtain ⟨a, s₁, hfirst, hrest⟩ := ends_bind_iff.mp h
    have hleads := hx.leads hs hfirst
    obtain ⟨s₂, s₃, hbefore, hkept, hproceed, hafter⟩ :=
      (hf hfirst).ends (hleads.during hs) hrest
    refine ⟨s₂, s₃, hleads.trans hbefore, fun hkeeps => ?_, hproceed, hafter⟩
    exact (hkept hkeeps).trans (hleaves hkeeps hs hfirst)

/-- What comes after it has proceeded. -/
theorem HandsOn.proceed_bind {keeps : Prop} {f : Result → AtCall κ σ ν Result}
    (hproceed : Sound host (fun _ => True) call proceed)
    (hf : ∀ result, Settles host call (f result) result) :
    HandsOn host call keeps proceed (proceed >>= f) where
  ends {s} _ _ hs h := by
    obtain ⟨result, s₁, hfirst, hrest⟩ := ends_bind_iff.mp h
    obtain ⟨rfl, hafter⟩ := (hf result).ends ((hproceed.leads hs hfirst).during hs) hrest
    exact ⟨s, s₁, .refl s, fun _ => rfl, hfirst, hafter⟩

theorem answer_quiet (hbelow : below.Sound host) (r : JoinPointRequest κ σ ν) :
    Sound host (call < ·.call) call (answer below r) :=
  answer_sound hbelow (fun _ ha => ha) r

theorem code_quiet (hbelow : below.Sound host) (code : JoinPointCode κ σ ν α) :
    Sound host (call < ·.call) call (code.run (answer below)) :=
  .code (answer_quiet hbelow) code

theorem answer_leaves {r : JoinPointRequest κ σ ν} (hkeeps : r.KeepsArguments) :
    LeavesArguments call (answer below r) :=
  fun _ h => answer_keeps hkeeps h

theorem code_leaves {code : JoinPointCode κ σ ν α}
    (hasks : code.Asks JoinPointRequest.KeepsArguments) :
    LeavesArguments call (code.run (answer below)) :=
  fun _ h => code_keeps hasks h

theorem pure_leaves (a : α) : LeavesArguments call (pure a : AtCall κ σ ν α) := by
  intro s b s' _ h
  obtain ⟨_, rfl⟩ := ends_pure_iff.mp h
  rfl

theorem log_leaves (level : Level) (message : String) (fields : List (String × String)) :
    LeavesArguments call (log level message fields : AtCall κ σ ν Unit) := by
  rintro ⟨jp, w⟩ a ⟨jp', w'⟩ _ h
  cases h
  rfl

section Code

variable {position : Nat}

/-- Around advice that does not proceed any more settles with what it gives. -/
theorem around_settles (hbelow : below.Sound host) {code : AroundCode κ σ ν}
    (hasks : code.Asks (· ≠ AroundRequest.proceed)) (hgives : code.Gives (· = own)) :
    Settles host call (code.run (answerAround below position proceed)) own := by
  induction code with
  | done r =>
      obtain rfl : r = own := hgives
      exact .pure r
  | ask r resume ih =>
      cases r with
      | inner request =>
          exact .bind (answer_quiet hbelow request) fun _ => ih _ (hasks.2 _) (hgives _)
      | proceed => exact absurd rfl hasks.1
      | position => exact .bind (.pure position) fun _ => ih _ (hasks.2 _) (hgives _)

/-- Around advice that forwards calls hands on what proceeding gives. -/
theorem around_handsOn (hbelow : below.Sound host)
    (hproceed : Sound host (fun _ => True) call proceed) {code : AroundCode κ σ ν}
    (hforwards : AroundCode.Forwards code) :
    HandsOn host call (AroundCode.PassesOn code) proceed
      (code.run (answerAround below position proceed)) := by
  induction code with
  | done r => exact hforwards.elim
  | ask r resume ih =>
      cases r with
      | inner request =>
          refine .bind (answer_quiet hbelow request)
            (fun hpasses => answer_leaves hpasses.1) fun {answer} _ _ _ => ?_
          exact (ih answer (hforwards answer)).weaken fun hpasses => hpasses.2 answer
      | proceed =>
          refine .proceed_bind hproceed fun result => ?_
          exact around_settles hbelow (hforwards result).1 (hforwards result).2
      | position =>
          refine .bind (.pure position) (fun _ => pure_leaves position) fun {answer} _ _ _ => ?_
          exact (ih answer (hforwards answer)).weaken fun hpasses => hpasses answer

/-- Code that always succeeds settles with a result for what follows it. -/
theorem code_settles (hbelow : below.Sound host)
    {code : JoinPointCode κ σ ν (Except AopError Unit)} (hgives : code.Gives (· = .ok ()))
    {f : Except AopError Unit → AtCall κ σ ν Result} (hf : f (.ok ()) = pure own) :
    Settles host call (code.run (answer below) >>= f) own where
  ends hs h := by
    obtain ⟨ended, s₁, hcode, hrest⟩ := ends_bind_iff.mp h
    obtain rfl : ended = .ok () := code_gives (· = .ok ()) hgives hcode
    rw [hf] at hrest
    obtain ⟨rfl, rfl⟩ := ends_pure_iff.mp hrest
    exact ⟨rfl, (code_quiet hbelow code).leads hs hcode⟩

theorem log_settles {level : Level} {message : String} {fields : List (String × String)} :
    Settles host call (log level message fields >>= fun _ => pure own) own :=
  .bind (log_sound _ _ _) fun _ => .pure own

theorem logCall_handsOn (hproceed : Sound host (fun _ => True) call proceed)
    (withArguments : Bool) : HandsOn host call True proceed (logCall withArguments proceed) := by
  refine .get_bind fun jp => .bind (log_sound _ _ _) (fun _ => log_leaves _ _ _) fun _ => ?_
  refine .proceed_bind hproceed fun result => ?_
  cases result with
  | ok value => exact log_settles
  | error e => exact log_settles

theorem timeCall_handsOn (hproceed : Sound host (fun _ => True) call proceed) (threshold : Nat) :
    HandsOn host call True proceed (timeCall threshold proceed) := by
  refine .get_bind fun jp => .proceed_bind hproceed fun result => ?_
  split
  · exact log_settles
  · exact log_settles

theorem logError_handsOn (hproceed : Sound host (fun _ => True) call proceed) :
    HandsOn host call True proceed (logError proceed) := by
  refine .get_bind fun jp => .proceed_bind hproceed fun result => ?_
  cases result with
  | ok value => exact .pure _
  | error e => exact log_settles

/-- An interceptor that forwards the calls of a method hands on what proceeding gives. -/
theorem intercept_handsOn (hbelow : below.Sound host)
    (hproceed : Sound host (fun _ => True) call proceed) {action : Action κ}
    (hforwards : action.Forwards host s.joinPoint.method) (hs : s.During call)
    (h : Ends (intercept host below action position proceed) s own s') :
    ∃ s₁ s₂, s.Leads host (call < ·.call) s₁ ∧
      (action.PassesOn host s.joinPoint.method →
        s₁.joinPoint.arguments = s.joinPoint.arguments) ∧
      Ends proceed s₁ own s₂ ∧ s₂.Leads host (call < ·.call) s' := by
  cases action with
  | scripted code => exact (around_handsOn hbelow hproceed hforwards).ends hs h
  | before code =>
      refine HandsOn.ends (.bind (code_quiet hbelow _)
        (fun hpasses => code_leaves hpasses.1) fun hended => ?_) hs h
      have hgives : (host.before code).Gives (· = .ok ()) := hforwards
      obtain rfl := code_gives (· = .ok ()) hgives hended
      exact .itself
  | afterReturning code =>
      refine HandsOn.ends (.proceed_bind hproceed fun result => ?_) hs h
      cases result with
      | error e => exact .pure _
      | ok value => exact code_settles hbelow (hforwards value) rfl
  | afterThrowing code =>
      refine HandsOn.ends (.proceed_bind hproceed fun result => ?_) hs h
      cases result with
      | error e => exact code_settles hbelow (hforwards e) rfl
      | ok value => exact .pure _
  | after code =>
      refine HandsOn.ends (.proceed_bind hproceed fun result => ?_) hs h
      cases result with
      | error e => exact code_settles hbelow hforwards rfl
      | ok value => exact code_settles hbelow hforwards rfl
  | delegate target interfaces =>
      have hother : ¬ isIntroduced interfaces s.joinPoint.method = true :=
        Bool.not_eq_true _ ▸ hforwards
      rw [intercept, ends_get_bind_iff, if_neg hother] at h
      exact HandsOn.itself.ends hs h
  | logging withArguments => exact (logCall_handsOn hproceed withArguments).ends hs h
  | performance threshold => exact (timeCall_handsOn hproceed threshold).ends hs h
  | exceptionLogging => exact (logError_handsOn hproceed).ends hs h
  | retry limit =>
      have honce : limit - 1 = 0 := Nat.sub_eq_zero_of_le hforwards
      rw [intercept, honce, retry] at h
      exact HandsOn.itself.ends hs h

end Code

end AtCall

end Weaving
