import Weaving.Proofs.SoundChains

/-
Running a call through its chain is sound as long as the user code that runs on the way is.  What is
left of a chain from a position on enters and returns from no position before it.
-/
namespace Weaving

variable {κ σ ν α : Type}

/-- The acts of a call from a position of its chain on are allowed, and those of all later calls. -/
structure Permits (allowed : Act → Prop) (call index : Nat) : Prop where
  later : ∀ a : Act, call + 1 ≤ a.call → allowed a
  entered : ∀ (k : Nat) (phase : Phase), index ≤ k → allowed (.entered call k phase)
  reached : ∀ (target : TargetId) (arguments : List Value) (phase : Option Phase),
    allowed (.reached call target arguments phase)
  returned : ∀ (k : Nat) (ok : Bool) (phase : Phase), index ≤ k →
    allowed (.returned call k ok phase)

theorem Permits.anything (call index : Nat) : Permits (fun _ => True) call index where
  later _ _ := trivial
  entered _ _ _ := trivial
  reached _ _ _ := trivial
  returned _ _ _ _ := trivial

theorem Permits.after {allowed : Act → Prop} {call i j : Nat} (h : Permits allowed call i)
    (hle : i ≤ j) : Permits allowed call j where
  later := h.later
  entered k phase hk := h.entered k phase (Nat.le_trans hle hk)
  reached := h.reached
  returned k ok phase hk := h.returned k ok phase (Nat.le_trans hle hk)

namespace AtCall

variable {host : Host κ σ ν} {below : Handler κ σ ν} {allowed : Act → Prop} {call index : Nat}

theorem Sound.code {Req : Type} {Ans : Req → Type} {handle : (r : Req) → AtCall κ σ ν (Ans r)}
    (hhandle : ∀ r, Sound host allowed call (handle r)) (p : Program Req Ans α) :
    Sound host allowed call (p.run handle) := by
  induction p with
  | done a => exact .pure a
  | ask r resume ih => exact (hhandle r).bind ih

theorem enterPhase_sound (phase : Phase) :
    Sound host allowed call (enterPhase phase : AtCall κ σ ν Unit) :=
  .modify fun _ => ⟨rfl, rfl, rfl, rfl, rfl, rfl⟩

theorem act_sound {a : Nat → Act} (ha : allowed (a call)) (hcall : (a call).call = call) :
    Sound host allowed call (act a : AtCall κ σ ν Unit) := by
  refine .get_bind fun jp hjp => ?_
  rw [hjp]
  refine .lift (.record_act ha ?_)
  rw [hcall]
  exact Nat.lt_succ_self call

theorem log_sound (level : Level) (message : String) (fields : List (String × String)) :
    Sound host allowed call (log level message fields : AtCall κ σ ν Unit) :=
  .lift (.log _)

theorem answer_sound (hbelow : below.Sound host) (hlater : ∀ a : Act, call + 1 ≤ a.call → allowed a)
    (r : JoinPointRequest κ σ ν) : Sound host allowed call (answer below r) := by
  cases r with
  | outer request => exact .lift (.request hbelow hlater request)
  | view => exact .get_bind fun jp _ => .pure jp
  | setArguments arguments => exact .modify fun _ => ⟨rfl, rfl, rfl, rfl, rfl, rfl⟩
  | setAttribute name value => exact .modify fun _ => ⟨rfl, rfl, rfl, rfl, rfl, rfl⟩

theorem settle_sound (result : Result) :
    Sound host allowed call (settle result : AtCall κ σ ν Result) :=
  (enterPhase_sound _).bind fun _ => .pure _

theorem reach_sound (hbelow : below.Sound host) (hpermits : Permits allowed call index)
    (target : TargetId) (phase : Option Phase) :
    Sound host allowed call (reach host below target phase) := by
  rw [reach]
  refine .get_bind fun jp _ => ?_
  apply (act_sound (hpermits.reached target jp.arguments phase) rfl).bind
  intro _
  exact .lift (Run.callTarget_sound hbelow hpermits.later _ _ _)

theorem reachTarget_sound (hbelow : below.Sound host) (hpermits : Permits allowed call index) :
    Sound host allowed call (reachTarget host below) := by
  rw [reachTarget]
  refine .get_bind fun jp _ => ?_
  split
  · exact settle_sound _
  · refine (enterPhase_sound _).bind fun _ => .get_bind fun jp' _ => ?_
    exact (reach_sound hbelow hpermits _ _).bind fun result => settle_sound result

theorem delegateTo_sound (hbelow : below.Sound host) (hpermits : Permits allowed call index)
    (delegate : TargetId) : Sound host allowed call (delegateTo host below delegate) := by
  rw [delegateTo]
  apply (reach_sound hbelow hpermits delegate none).bind
  intro result
  cases result with
  | error e => exact .pure _
  | ok value =>
      dsimp only
      split
      · refine .get_bind fun jp _ => ?_
        split
        · exact .pure _
        · exact .pure _
      · exact .pure _

section Proceeding

variable {proceed : AtCall κ σ ν Result}

theorem retry_sound (hproceed : Sound host allowed call proceed) (limit : Nat) :
    ∀ attempt remaining : Nat, Sound host allowed call (retry limit proceed attempt remaining)
  | _, 0 => hproceed
  | attempt, remaining + 1 => by
      apply hproceed.bind
      intro result
      cases result with
      | ok value => exact .pure _
      | error e =>
          dsimp only
          split
          · refine .get_bind fun jp _ => (log_sound _ _ _).bind fun _ => ?_
            exact retry_sound hproceed limit (attempt + 1) remaining
          · exact .pure _

theorem logCall_sound (hproceed : Sound host allowed call proceed) (withArguments : Bool) :
    Sound host allowed call (logCall withArguments proceed) := by
  rw [logCall]
  refine .get_bind fun jp _ => (log_sound _ _ _).bind fun _ => hproceed.bind fun result => ?_
  cases result with
  | ok value => exact (log_sound _ _ _).bind fun _ => .pure _
  | error e => exact (log_sound _ _ _).bind fun _ => .pure _

theorem timeCall_sound (hproceed : Sound host allowed call proceed) (threshold : Nat) :
    Sound host allowed call (timeCall threshold proceed) := by
  rw [timeCall]
  refine .get_bind fun jp _ => hproceed.bind fun result => ?_
  split
  · exact (log_sound _ _ _).bind fun _ => .pure _
  · exact (log_sound _ _ _).bind fun _ => .pure _

theorem logError_sound (hproceed : Sound host allowed call proceed) :
    Sound host allowed call (logError proceed) := by
  rw [logError]
  refine .get_bind fun jp _ => hproceed.bind fun result => ?_
  cases result with
  | ok value => exact .pure _
  | error e => exact (log_sound _ _ _).bind fun _ => .pure _

theorem intercept_sound (hbelow : below.Sound host) (hpermits : Permits allowed call index)
    (hproceed : Sound host allowed call proceed) (action : Action κ) (position : Nat) :
    Sound host allowed call (intercept host below action position proceed) := by
  have hanswer := answer_sound hbelow hpermits.later
  cases action with
  | scripted code =>
      refine .code (fun r => ?_) _
      cases r with
      | inner request => exact hanswer request
      | proceed => exact hproceed
      | position => exact .pure _
  | before code =>
      apply (Sound.code hanswer _).bind
      intro before
      cases before with
      | error e => exact .pure _
      | ok _ => exact hproceed
  | afterReturning code =>
      apply hproceed.bind
      intro result
      cases result with
      | error e => exact .pure _
      | ok value =>
          apply (Sound.code hanswer _).bind
          intro after
          cases after with
          | error e => exact .pure _
          | ok _ => exact .pure _
  | afterThrowing code =>
      apply hproceed.bind
      intro result
      cases result with
      | ok value => exact .pure _
      | error e =>
          apply (Sound.code hanswer _).bind
          intro after
          cases after with
          | error replacement => exact .pure _
          | ok _ => exact .pure _
  | after code =>
      refine hproceed.bind fun result => (Sound.code hanswer _).bind fun after => ?_
      cases result with
      | error e => exact .pure _
      | ok value =>
          cases after with
          | error e => exact .pure _
          | ok _ => exact .pure _
  | delegate target interfaces =>
      refine .get_bind fun jp _ => ?_
      split
      · exact delegateTo_sound hbelow hpermits target
      · exact hproceed
  | logging withArguments => exact logCall_sound hproceed withArguments
  | performance threshold => exact timeCall_sound hproceed threshold
  | exceptionLogging => exact logError_sound hproceed
  | retry limit => exact retry_sound hproceed _ _ _

end Proceeding

theorem translated_sound (hpermits : Permits allowed call index) {rest : AtCall κ σ ν Result}
    (hrest : Sound host allowed call rest) : Sound host allowed call (translated index rest) := by
  rw [translated]
  refine .get_bind fun jp _ => hrest.bind fun result => .get_bind fun jp' _ => ?_
  exact (act_sound (hpermits.returned index _ _ (Nat.le_refl index)) rfl).bind fun _ => .pure _

theorem proceedFrom_sound (hbelow : below.Sound host) (chain : Chain κ) :
    ∀ index : Nat, Permits allowed call index →
      Sound host allowed call (proceedFrom host below chain index) := by
  induction chain with
  | nil => exact fun index hpermits => reachTarget_sound hbelow hpermits
  | cons entry rest ih =>
      intro index hpermits
      have hafter : Permits allowed call (index + 1) := hpermits.after (Nat.le_succ index)
      have hrest := ih (index + 1) hafter
      rw [proceedFrom]
      refine .get_bind fun jp _ => ?_
      split
      · refine (enterPhase_sound _).bind fun _ => .get_bind fun jp' _ => ?_
        apply (act_sound (hpermits.entered index _ (Nat.le_refl index)) rfl).bind
        intro _
        refine Sound.bind ?_ fun result => settle_sound result
        exact intercept_sound hbelow hpermits (translated_sound hafter hrest) _ _
      · exact (log_sound _ _ _).bind fun _ => hrest

theorem invoke_sound (hbelow : below.Sound host) (hpermits : Permits allowed call 0) :
    Sound host allowed call (invoke host below) :=
  .get_bind fun jp _ => translated_sound hpermits (proceedFrom_sound hbelow jp.chain 0 hpermits)

end AtCall

end Weaving
