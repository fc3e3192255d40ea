import Weaving.Proofs.Forwarding

/-
The phases of a call.  They are kept in one place, which every level of the call writes, and writes
again each time an interceptor proceeds.  Still they tell nothing that could not be told without that
place: what an interceptor sees follows from its position and from how it proceeded last, whatever
the levels below it went through.  So the engine is compared with one that never looks at the phase.
-/
namespace Weaving

variable {κ σ ν α β : Type}

theorem Phase.ofResult_eq (result : Except AopError α) :
    Phase.ofResult result = if result.isOk then .complete else .failed := by
  cases result with
  | ok value => rfl
  | error e => rfl

/-- How far a call has come, for an interceptor of it that was entered. -/
inductive Stage where
  /-- The interceptor at a position has not proceeded yet. -/
  | running (index : Nat)
  /-- When it last proceeded, the rest of the chain came to a value. -/
  | complete
  /-- When it last proceeded, the rest of the chain came to an error. -/
  | failed

namespace Stage

/-- The phase that belongs to a stage. -/
def phase : Stage → Phase
  | .running index => .running index
  | .complete => .complete
  | .failed => .failed

/-- The stage after proceeding with a result. -/
def ofResult {ε : Type} : Except ε α → Stage
  | .ok _ => .complete
  | .error _ => .failed

@[simp] theorem phase_ofResult {ε : Type} (result : Except ε α) :
    (ofResult result).phase = Phase.ofResult result := by
  cases result with
  | ok value => rfl
  | error e => rfl

theorem phase_ne_notStarted (stage : Stage) : stage.phase ≠ .notStarted := by
  cases stage with
  | running index => exact fun h => nomatch h
  | complete => exact fun h => nomatch h
  | failed => exact fun h => nomatch h

end Stage

/-- An act of a call shows the phase that belongs to it.  Only the delegates of the chain are reached
without a phase. -/
def Act.Truthful (chain : Chain κ) : Act → Prop
  | .entered _ index phase => phase = .running index
  | .reached _ _ _ (some phase) => phase = .targetInvoked
  | .reached _ object _ none =>
    ∃ entry ∈ chain, ∃ interfaces, entry.interceptor.action = .delegate object interfaces
  | .returned _ _ succeeded phase => phase = if succeeded then .complete else .failed
  | _ => True

/-- An act shows the phase that belongs to it if it is one of a certain call. -/
def Act.TruthfulIn (chain : Chain κ) (call : Nat) (a : Act) : Prop := a.call = call → a.Truthful chain

namespace AtCall

section Told

variable (host : Host κ σ ν) (below : Handler κ σ ν)

/-- Answers the requests of code at a call, given the stage of the call. -/
def answerTold (stage : Stage) : (r : JoinPointRequest κ σ ν) → AtCall κ σ ν r.Answer
  | .view => do
    let jp ← get
    return { jp with phase := stage.phase }
  | r => answer below r

/-- Runs around advice that stands before a position of the chain, given the stage of the call. -/
def aroundTold (position : Nat) (proceed : AtCall κ σ ν Result) :
    Stage → AroundCode κ σ ν → AtCall κ σ ν Result
  | _, .done result => return result
  | stage, .ask (.inner request) resume => do
    let answer ← answerTold below stage request
    aroundTold position proceed stage (resume answer)
  | _, .ask .proceed resume => do
    let result ← proceed
    aroundTold position proceed (.ofResult result) (resume result)
  | stage, .ask .position resume => aroundTold position proceed stage (resume position)

/-- Runs the interceptor at a position. -/
def interceptTold (action : Action κ) (index : Nat) (proceed : AtCall κ σ ν Result) :
    AtCall κ σ ν Result :=
  match action with
  | .scripted code => aroundTold below (index + 1) proceed (.running index) (host.around code)
  | .before code => do
    match ← (host.before code).run (answerTold below (.running index)) with
    | .error e => return .error e
    | .ok () => proceed
  | .afterReturning code => do
    match ← proceed with
    | .error e => return .error e
    | .ok value =>
      match ← (host.afterReturning code value).run (answerTold below .complete) with
      | .error e => return .error e
      | .ok () => return .ok value
  | .afterThrowing code => do
    match ← proceed with
    | .ok value => return .ok value
    | .error e =>
      match ← (host.afterThrowing code e).run (answerTold below .failed) with
      | .error replacement => return .error replacement
      | .ok () => return .error e
  | .after code => do
    let result ← proceed
    let after ← (host.after code).run (answerTold below (.ofResult result))
    match result, after with
    | .error e, _ => return .error e
    | .ok _, .error e => return .error e
    | .ok value, .ok () => return .ok value
  -- no code of the user's sees the call in any of the others
  | action => intercept host below action (index + 1) proceed

/-- Reaches the target at the end of the chain, if there is one. -/
def reachTargetTold : AtCall κ σ ν Result := do
  let jp ← get
  match jp.target with
  | none => settle (.error (.noTarget jp.method.text))
  | some target =>
    enterPhase .targetInvoked
    settle (← reach host below target (some .targetInvoked))

/-- Ends the rest of a chain for the one who asked for it. -/
def translatedTold (index : Nat) (rest : AtCall κ σ ν Result) : AtCall κ σ ν Result := do
  let result := translateUndeclared (← get).method (← rest)
  act (.returned · index result.isOk (.ofResult result))
  return result

/-- Runs the rest of a chain, which begins at a position. -/
def proceedFromTold : Chain κ → Nat → AtCall κ σ ν Result
  | [], _ => reachTargetTold host below
  | entry :: rest, index => do
    let jp ← get
    if entry.admits jp.method jp.targetType jp.arguments then
      enterPhase (.running index)
      act (.entered · index (.running index))
      settle (← interceptTold host below entry.interceptor.action index
        (translatedTold (index + 1) (proceedFromTold rest (index + 1))))
    else
      log .trace ("Dynamic matcher rejected " ++ jp.method.text ++ " at chain position "
        ++ toString index ++ ", skipping") []
      proceedFromTold rest (index + 1)

/-- Proceeds through a chain from a position without ever looking at the phase. -/
def proceedTold (chain : Chain κ) (i : Nat) : AtCall κ σ ν Result :=
  translatedTold i (proceedFromTold host below (chain.drop i) i)

end Told

/-- From a phase of a certain kind, two computations do the same; they end in a phase that goes with
the answer, and the acts of the call on the way are truthful. -/
structure Tells (host : Host κ σ ν) (chain : Chain κ) (pre : Phase → Prop) (x y : AtCall κ σ ν α)
    (post : α → Phase → Prop) : Prop where
  same : ∀ s : Moment κ σ ν, pre s.joinPoint.phase →
    (x.run s.joinPoint).run s.world = (y.run s.joinPoint).run s.world
  ends : ∀ {s : Moment κ σ ν} {a : α} {s' : Moment κ σ ν}, pre s.joinPoint.phase → Ends x s a s' →
    post a s'.joinPoint.phase
  leads : ∀ {s : Moment κ σ ν} {a : α} {s' : Moment κ σ ν} {call : Nat}, pre s.joinPoint.phase →
    s.During call → Ends x s a s' →
    s.Leads host (Act.TruthfulIn chain call) s'

variable {host : Host κ σ ν} {below : Handler κ σ ν} {chain : Chain κ} {pre pre' : Phase → Prop}
  {x y : AtCall κ σ ν α} {post post' : α → Phase → Prop}

namespace Tells

theorem weaken (h : Tells host chain pre x y post) (hpre : ∀ p, pre' p → pre p)
    (hpost : ∀ a p, post a p → post' a p) : Tells host chain pre' x y post' where
  same s hs := h.same s (hpre _ hs)
  ends hs hends := hpost _ _ (h.ends (hpre _ hs) hends)
  leads hs hcall hends := h.leads (hpre _ hs) hcall hends

/-- What begins in any phase begins in those of a kind. -/
theorem anywhere (h : Tells host chain (fun _ => True) x y post) : Tells host chain pre x y post :=
  h.weaken (fun _ _ => trivial) fun _ _ hpost => hpost

theorem forget (h : Tells host chain pre x y post) : Tells host chain pre x y fun _ _ => True :=
  h.weaken (fun _ hpre => hpre) fun _ _ _ => trivial

theorem pure {a : α} (h : ∀ p, pre p → post a p) :
    Tells host chain pre (Pure.pure a) (Pure.pure a) post where
  same _ _ := rfl
  ends hs hends := by
    obtain ⟨rfl, rfl⟩ := ends_pure_iff.mp hends
    exact h _ hs
  leads _ _ hends := by
    obtain ⟨rfl, rfl⟩ := ends_pure_iff.mp hends
    exact .refl _

theorem bind {f g : α → AtCall κ σ ν β} {last : β → Phase → Prop}
    (hx : Tells host chain pre x y post) (hf : ∀ a, Tells host chain (post a) (f a) (g a) last) :
    Tells host chain pre (x >>= f) (y >>= g) last where
  same s hs := by
    rw [StateT.run_bind, StateT.run_bind, StateT.run_bind, StateT.run_bind, ← hx.same s hs]
    rcases hrun : (x.run s.joinPoint).run s.world with _ | ⟨⟨a, jp'⟩, w'⟩
    · rfl
    · have hends : Ends x s a ⟨jp', w'⟩ := hrun
      exact (hf a).same ⟨jp', w'⟩ (hx.ends hs hends)
  ends hs h := by
    obtain ⟨a, s₁, hfirst, hrest⟩ := ends_bind_iff.mp h
    exact (hf a).ends (hx.ends hs hfirst) hrest
  leads hs hcall h := by
    obtain ⟨a, s₁, hfirst, hrest⟩ := ends_bind_iff.mp h
    have hleads := hx.leads hs hcall hfirst
    exact hleads.trans ((hf a).leads (hx.ends hs hfirst) (hleads.during hcall) hrest)

theorem get_bind {f g : JoinPoint κ → AtCall κ σ ν α}
    (hf : ∀ jp, pre jp.phase → Tells host chain (· = jp.phase) (f jp) (g jp) post) :
    Tells host chain pre (get >>= f) (get >>= g) post where
  same s hs := (hf s.joinPoint hs).same s rfl
  ends hs h := (hf _ hs).ends rfl (ends_get_bind_iff.mp h)
  leads hs hcall h := (hf _ hs).leads rfl hcall (ends_get_bind_iff.mp h)

/-- One of two computations may look at the phase if it is known. -/
theorem looks {f : JoinPoint κ → AtCall κ σ ν α}
    (hf : ∀ jp, pre jp.phase → Tells host chain (· = jp.phase) (f jp) y post) :
    Tells host chain pre (get >>= f) y post where
  same s hs := (hf s.joinPoint hs).same s rfl
  ends hs h := (hf _ hs).ends rfl (ends_get_bind_iff.mp h)
  leads hs hcall h := (hf _ hs).leads rfl hcall (ends_get_bind_iff.mp h)

theorem enterPhase_bind {phase : Phase} (h : Tells host chain (· = phase) x y post) :
    Tells host chain pre (enterPhase phase >>= fun _ => x) (enterPhase phase >>= fun _ => y)
      post where
  same s _ := h.same { s with joinPoint.phase := phase } rfl
  ends _ hends := h.ends rfl (ends_enterPhase_bind_iff.mp hends)
  leads {s} _ _ call _ hcall hends := by
    have hentered : s.Leads host (Act.TruthfulIn chain call) { s with joinPoint.phase := phase } :=
      ⟨⟨rfl, rfl, rfl, rfl, rfl, rfl⟩, .refl _⟩
    exact hentered.trans (h.leads rfl (hentered.during hcall) (ends_enterPhase_bind_iff.mp hends))

theorem act_bind {made : Nat → Act} (htruthful : ∀ call, (made call).Truthful chain)
    (hcall : ∀ call, (made call).call = call) (h : Tells host chain pre x y post) :
    Tells host chain pre (act made >>= fun _ => x) (act made >>= fun _ => y) post where
  same s hs := h.same { s with world := s.world.record (.act (made s.joinPoint.call)) } hs
  ends hs hends := by
    refine h.ends ?_ (ends_act_bind_iff.mp hends)
    exact hs
  leads {s} _ _ call hs hduring hends := by
    have hbegun : (made s.joinPoint.call).call < s.world.calls := by
      rw [hcall, hduring.number]
      exact hduring.begun
    have hrecorded : s.Leads host (Act.TruthfulIn chain call)
        { s with world := s.world.record (.act (made s.joinPoint.call)) } :=
      ⟨.refl _, World.leads_record_act (fun _ => htruthful _) hbegun⟩
    refine hrecorded.trans (h.leads ?_ (hrecorded.during hduring) (ends_act_bind_iff.mp hends))
    exact hs

/-- Nothing is told by a computation that leaves the phase as it is and does nothing of the call's own. -/
theorem quiet (hx : ∀ call, Sound host (call < ·.call) call x)
    (hkeeps : ∀ {s : Moment κ σ ν} {a : α} {s' : Moment κ σ ν}, Ends x s a s' →
      s'.joinPoint.phase = s.joinPoint.phase) : Tells host chain pre x x fun _ => pre where
  same _ _ := rfl
  ends hs hends := hkeeps hends ▸ hs
  leads _ hcall hends :=
    ((hx _).leads hcall hends).mono fun _ hlater hown => absurd hown (Nat.ne_of_gt hlater)

theorem lift {x : Run κ σ ν α}
    (hx : ∀ call, Sound host (call < ·.call) call (liftM x : AtCall κ σ ν α)) :
    Tells host chain pre (liftM x) (liftM x) fun _ => pre :=
  .quiet hx fun hends => by rw [(ends_lift_iff.mp hends).2]

theorem change {change : JoinPoint κ → JoinPoint κ}
    (hcontinues : ∀ jp : JoinPoint κ, jp.Continues (change jp))
    (hphase : ∀ jp, (change jp).phase = jp.phase) :
    Tells host chain pre (modify change) (modify change) fun _ => pre := by
  refine .quiet (fun _ => .modify hcontinues) fun {s _ s'} hends => ?_
  obtain ⟨jp', w'⟩ := s'
  cases hends
  exact hphase s.joinPoint

theorem log (level : Level) (message : String) (fields : List (String × String)) :
    Tells host chain pre (AtCall.log level message fields) (AtCall.log level message fields)
      fun _ => pre :=
  .lift fun _ => log_sound level message fields

theorem settle (result : Result) :
    Tells host chain pre (AtCall.settle result) (AtCall.settle result)
      fun a p => p = Phase.ofResult a :=
  .enterPhase_bind (.pure fun _ hp => hp)

end Tells

/-- What proceeding guarantees, whatever the phase is before. -/
abbrev ProceedsAs (host : Host κ σ ν) (chain : Chain κ) (proceed told : AtCall κ σ ν Result) :
    Prop :=
  Tells host chain (fun _ => True) proceed told fun result p => p = Phase.ofResult result

/-- So it leaves the phase of the stage that follows. -/
theorem ProceedsAs.toStage {proceed told : AtCall κ σ ν Result}
    (h : ProceedsAs host chain proceed told) :
    Tells host chain pre proceed told fun result p => p = (Stage.ofResult result).phase :=
  h.weaken (fun _ _ => trivial) fun result p hp => by rw [Stage.phase_ofResult, hp]

section Code

theorem answer_tells (hbelow : below.Sound host) (stage : Stage) (r : JoinPointRequest κ σ ν) :
    Tells host chain (· = stage.phase) (answer below r) (answerTold below stage r)
      fun _ p => p = stage.phase := by
  cases r with
  | outer request => exact .lift fun _ => answer_quiet hbelow (.outer request)
  | view =>
      change Tells host chain _ (get >>= Pure.pure) _ _
      refine .get_bind fun jp hjp => ?_
      rw [← hjp]
      exact .pure fun p hp => hp
  | setArguments arguments => exact .change (fun _ => ⟨rfl, rfl, rfl, rfl, rfl, rfl⟩) fun _ => rfl
  | setAttribute name value => exact .change (fun _ => ⟨rfl, rfl, rfl, rfl, rfl, rfl⟩) fun _ => rfl

theorem code_tells (hbelow : below.Sound host) (stage : Stage) (code : JoinPointCode κ σ ν α) :
    Tells host chain (· = stage.phase) (code.run (answer below)) (code.run (answerTold below stage))
      fun _ p => p = stage.phase := by
  induction code with
  | done a => exact .pure fun _ hp => hp
  | ask r resume ih => exact (answer_tells hbelow stage r).bind ih

variable {proceed told : AtCall κ σ ν Result}

/-- Around advice sees what it is told. -/
theorem around_tells (hbelow : below.Sound host) (hproceed : ProceedsAs host chain proceed told)
    (position : Nat) (code : AroundCode κ σ ν) :
    ∀ stage : Stage, Tells host chain (· = stage.phase)
      (code.run (answerAround below position proceed)) (aroundTold below position told stage code)
      fun _ _ => True := by
  induction code with
  | done result => exact fun _ => .pure fun _ _ => trivial
  | ask r resume ih =>
      intro stage
      cases r with
      | inner request =>
          exact (answer_tells hbelow stage request).bind fun answer => ih answer stage
      | proceed =>
          exact hproceed.toStage.bind fun result => ih result (.ofResult result)
      | position => exact ih position stage

theorem retry_tells (hproceed : ProceedsAs host chain proceed told) (limit : Nat) :
    ∀ attempt remaining : Nat, Tells host chain (fun _ => True)
      (retry limit proceed attempt remaining) (retry limit told attempt remaining) fun _ _ => True
  | _, 0 => hproceed.forget
  | attempt, remaining + 1 => by
      refine hproceed.bind fun result => ?_
      cases result with
      | ok value => exact .pure fun _ _ => trivial
      | error e =>
          dsimp only
          split
          · refine .get_bind fun jp _ => Tells.bind (.log _ _ _) fun _ => ?_
            exact (retry_tells hproceed limit (attempt + 1) remaining).anywhere
          · exact .pure fun _ _ => trivial

theorem reach_tells (hbelow : below.Sound host) {object : TargetId} {phase : Option Phase}
    (htruthful : ∀ call arguments, (Act.reached call object arguments phase).Truthful chain) :
    Tells host chain pre (reach host below object phase) (reach host below object phase)
      fun _ => pre := by
  refine .get_bind fun jp hjp => .act_bind (fun call => htruthful call jp.arguments)
    (fun _ => rfl) ?_
  refine Tells.weaken (.lift fun call => .lift ?_) (fun _ hp => hp ▸ hjp) fun _ _ h => h
  exact Run.callTarget_sound hbelow (fun _ ha => ha) object jp.method jp.arguments

theorem delegateTo_tells (hbelow : below.Sound host) {delegate : TargetId}
    (hdelegate : ∃ entry ∈ chain, ∃ interfaces,
      entry.interceptor.action = .delegate delegate interfaces) :
    Tells host chain pre (delegateTo host below delegate) (delegateTo host below delegate)
      fun _ _ => True := by
  have htruthful : ∀ call arguments,
      (Act.reached call delegate arguments none).Truthful chain := fun _ _ => hdelegate
  refine (reach_tells hbelow htruthful).bind fun result => ?_
  cases result with
  | error e => exact .pure fun _ _ => trivial
  | ok value =>
      dsimp only
      split
      · refine .get_bind fun jp _ => ?_
        split
        · exact .pure fun _ _ => trivial
        · exact .pure fun _ _ => trivial
      · exact .pure fun _ _ => trivial

theorem logCall_tells (hproceed : ProceedsAs host chain proceed told) (withArguments : Bool) :
    Tells host chain (fun _ => True) (logCall withArguments proceed) (logCall withArguments told)
      fun _ _ => True := by
  refine .get_bind fun jp _ => Tells.bind (.log _ _ _) fun _ => ?_
  refine hproceed.anywhere.bind fun result => ?_
  cases result with
  | ok value => exact Tells.bind (.log _ _ _) fun _ => .pure fun _ _ => trivial
  | error e => exact Tells.bind (.log _ _ _) fun _ => .pure fun _ _ => trivial

theorem timeCall_tells (hproceed : ProceedsAs host chain proceed told) (threshold : Nat) :
    Tells host chain (fun _ => True) (timeCall threshold proceed) (timeCall threshold told)
      fun _ _ => True := by
  refine .get_bind fun jp _ => ?_
  refine hproceed.anywhere.bind fun result => ?_
  split
  · exact Tells.bind (.log _ _ _) fun _ => .pure fun _ _ => trivial
  · exact Tells.bind (.log _ _ _) fun _ => .pure fun _ _ => trivial

theorem logError_tells (hproceed : ProceedsAs host chain proceed told) :
    Tells host chain (fun _ => True) (logError proceed) (logError told) fun _ _ => True := by
  refine .get_bind fun jp _ => ?_
  refine hproceed.anywhere.bind fun result => ?_
  cases result with
  | ok value => exact .pure fun _ _ => trivial
  | error e => exact Tells.bind (.log _ _ _) fun _ => .pure fun _ _ => trivial

/-- The interceptor at a position sees what it is told. -/
theorem intercept_tells (hbelow : below.Sound host) (hproceed : ProceedsAs host chain proceed told)
    {entry : ChainEntry κ} (hentry : entry ∈ chain) (index : Nat) :
    Tells host chain (· = .running index)
      (intercept host below entry.interceptor.action (index + 1) proceed)
      (interceptTold host below entry.interceptor.action index told) fun _ _ => True := by
  cases haction : entry.interceptor.action with
  | scripted code => exact around_tells hbelow hproceed (index + 1) _ (.running index)
  | before code =>
      refine (code_tells hbelow (.running index) _).bind fun before => ?_
      cases before with
      | error e => exact .pure fun _ _ => trivial
      | ok _ => exact hproceed.anywhere.forget
  | afterReturning code =>
      refine hproceed.anywhere.bind fun result => ?_
      cases result with
      | error e => exact .pure fun _ _ => trivial
      | ok value =>
          refine (code_tells hbelow .complete _).bind fun after => ?_
          cases after with
          | error e => exact .pure fun _ _ => trivial
          | ok _ => exact .pure fun _ _ => trivial
  | afterThrowing code =>
      refine hproceed.anywhere.bind fun result => ?_
      cases result with
      | ok value => exact .pure fun _ _ => trivial
      | error e =>
          refine (code_tells hbelow .failed _).bind fun after => ?_
          cases after with
          | error replacement => exact .pure fun _ _ => trivial
          | ok _ => exact .pure fun _ _ => trivial
  | after code =>
      refine hproceed.toStage.bind fun result =>
        (code_tells hbelow (.ofResult result) _).bind fun after => ?_
      cases result with
      | error e => exact .pure fun _ _ => trivial
      | ok value =>
          cases after with
          | error e => exact .pure fun _ _ => trivial
          | ok _ => exact .pure fun _ _ => trivial
  | delegate object interfaces =>
      refine .get_bind fun jp _ => ?_
      split
      · exact delegateTo_tells hbelow ⟨entry, hentry, interfaces, haction⟩
      · exact hproceed.anywhere.forget
  | logging withArguments => exact (logCall_tells hproceed withArguments).anywhere
  | performance threshold => exact (timeCall_tells hproceed threshold).anywhere
  | exceptionLogging => exact (logError_tells hproceed).anywhere
  | retry limit => exact (retry_tells hproceed _ _ _).anywhere

end Code

theorem reachTarget_tells (hbelow : below.Sound host) :
    ProceedsAs host chain (reachTarget host below) (reachTargetTold host below) := by
  refine .get_bind fun jp _ => ?_
  cases jp.target with
  | none => exact .settle _
  | some target =>
      refine .enterPhase_bind (.looks fun jp' hjp' => ?_)
      rw [hjp']
      have htruthful : ∀ call arguments,
          (Act.reached call target arguments (some .targetInvoked)).Truthful chain :=
        fun _ _ => rfl
      exact (reach_tells hbelow htruthful).bind fun result => .settle result

/-- Translating a result, a level tells whether it is one of success. -/
theorem translated_tells {rest told : AtCall κ σ ν Result} (hrest : ProceedsAs host chain rest told)
    (index : Nat) : ProceedsAs host chain (translated index rest) (translatedTold index told) := by
  refine .get_bind fun jp _ => ?_
  refine hrest.anywhere.bind fun own => ?_
  have hphase : Phase.ofResult own = Phase.ofResult (translateUndeclared jp.method own) := by
    rw [Phase.ofResult_eq, Phase.ofResult_eq, isOk_translateUndeclared]
  dsimp only
  refine .looks fun jp' hjp' => ?_
  rw [hjp', hphase]
  exact .act_bind (fun _ => Phase.ofResult_eq _) (fun _ => rfl) (.pure fun _ hp => hp)

/-- From a position on, what the phase says can be told without looking at it. -/
theorem proceedFrom_tells (hbelow : below.Sound host) {rest : Chain κ} :
    ∀ index : Nat, (∀ entry ∈ rest, entry ∈ chain) →
      ProceedsAs host chain (proceedFrom host below rest index)
        (proceedFromTold host below rest index) := by
  induction rest with
  | nil => exact fun _ _ => reachTarget_tells hbelow
  | cons entry rest ih =>
      intro index hmem
      obtain ⟨hentry, hrest⟩ := List.forall_mem_cons.mp hmem
      have hproceed := translated_tells (ih (index + 1) hrest) (index + 1)
      refine .get_bind fun jp _ => ?_
      split
      · refine .enterPhase_bind (.looks fun jp' hjp' => ?_)
        rw [hjp']
        refine .act_bind (fun _ => rfl) (fun _ => rfl) ?_
        exact (intercept_tells hbelow hproceed hentry index).bind fun result => .settle result
      · refine Tells.bind (.log _ _ _) fun _ => ?_
        exact (ih (index + 1) hrest).anywhere

/-- Phases tell the truth.  A call that proceeds from any position of any chain does what it would do
if its interceptors were told the stage of the call and nobody looked at the phase: before an
interceptor proceeds it sees that it runs at its position, afterwards it sees whether it last
proceeded to a value or to an error, and it never sees that nothing has run.  When the rest of the
chain has come to its end, the phase tells whether it came to a value; and of all acts of the call on
the way, however often levels were entered again, each shows the phase that belongs to it. -/
theorem phases_tell_the_truth (host : Host κ σ ν) (depth : Nat) (chain : Chain κ) (i : Nat)
    (jp : JoinPoint κ) :
    (invoke host (Run.answer host depth)).run jp =
        (proceedAt host (Run.answer host depth) jp.chain 0).run jp ∧
      (proceedAt host (Run.answer host depth) chain i).run jp =
        (proceedTold host (Run.answer host depth) chain i).run jp ∧
      (∀ stage : Stage, stage.phase ≠ .notStarted) ∧
      ∀ (w w' : World κ σ ν) (result : Result) (jp' : JoinPoint κ),
        ((proceedAt host (Run.answer host depth) chain i).run jp).run w =
          some ((result, jp'), w') →
        jp'.phase = .ofResult result ∧
          (jp.call < w.calls → ∃ more, w'.courseOf jp.call = w.courseOf jp.call ++ more ∧
            ∀ a ∈ more, a.Truthful chain) := by
  have hproceed : ProceedsAs host chain (proceedAt host (Run.answer host depth) chain i)
      (proceedTold host (Run.answer host depth) chain i) :=
    translated_tells (proceedFrom_tells (Run.answer_sound host depth) i
      fun _ => List.mem_of_mem_drop) i
  refine ⟨?_, ?_, Stage.phase_ne_notStarted, fun w w' result jp' h => ?_⟩
  · rw [invoke, get_bind_run, proceedAt, List.drop_zero]
  · funext w
    exact hproceed.same ⟨jp, w⟩ trivial
  · have hends : Ends (proceedAt host (Run.answer host depth) chain i) ⟨jp, w⟩ result ⟨jp', w'⟩ := h
    refine ⟨hproceed.ends trivial hends, fun hcall => ?_⟩
    have hleads := hproceed.leads trivial ⟨rfl, hcall⟩ hends
    obtain ⟨more, hmore, hall⟩ := hleads.world.course jp.call
    refine ⟨more, hmore, fun a ha => ?_⟩
    obtain ⟨hown, htruthful, _⟩ := hall a ha
    exact htruthful hown

section Recovering

/-- Around advice that proceeds twice and recovers if it sees that the call has failed. -/
def recoveringHost : Host Unit Unit Unit :=
  { Host.idle with
    around := fun _ => .ask .proceed fun _ => .ask .proceed fun result =>
      .ask (.inner .view) fun seen => .done (if seen.phase = .failed then .ok none else result) }

def recoveringChain : Chain Unit := [.settled ⟨none, .scripted ()⟩]

/-- A call without a target. -/
def recoveredCall : JoinPoint Unit := .opened .finalizer [] none none recoveringChain none

def recoveringWorld : World Unit Unit Unit := { World.initial () with calls := 1 }

/-- The advice recovers, and the phase tells of its success. -/
theorem phases_tell_the_truth_recovering :
    ∃ jp' w' more,
      ((proceedTold recoveringHost (Run.answer recoveringHost 1) recoveringChain 0).run
        recoveredCall).run recoveringWorld = some ((.ok none, jp'), w') ∧
      recoveredCall.call < recoveringWorld.calls ∧ jp'.phase = .complete ∧
      w'.courseOf 0 = recoveringWorld.courseOf 0 ++ more ∧
      ∀ a ∈ more, a.Truthful recoveringChain := by
  have hcall : recoveredCall.call < recoveringWorld.calls := Nat.zero_lt_one
  obtain ⟨_, htold, _, hends⟩ :=
    phases_tell_the_truth recoveringHost 1 recoveringChain 0 recoveredCall
  obtain ⟨jp', w', hrun⟩ : ∃ jp' w',
      ((proceedAt recoveringHost (Run.answer recoveringHost 1) recoveringChain 0).run
        recoveredCall).run recoveringWorld = some ((.ok none, jp'), w') := ⟨_, _, rfl⟩
  obtain ⟨hphase, hacts⟩ := hends _ _ _ _ hrun
  obtain ⟨more, hmore, htruthful⟩ := hacts hcall
  rw [htold] at hrun
  exact ⟨jp', w', more, hrun, hcall, hphase, hmore, htruthful⟩

end Recovering

end AtCall

end Weaving
