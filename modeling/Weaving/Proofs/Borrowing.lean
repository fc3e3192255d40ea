import Weaving.Proofs.Exposure

/-
How an advised call borrows its target.  The target is taken from the source once, when the chain is
settled and before anything of it runs; after the call it is given back once if the source is not
static.  The acts of a call carry its number, so calls that nest on the same source do not count.
-/
namespace Weaving

variable {κ σ ν : Type}

/-- Whether an act belongs to the part of a call between taking a target and giving it back. -/
def Act.isInner : Act → Bool
  | .entered _ _ _ => true
  | .reached _ _ _ _ => true
  | .returned _ _ _ _ => true
  | _ => false

/-- The act of having asked a source for a target. -/
def Act.ofAcquisition (call : Nat) (id : SourceId) : Except AopError (Option TargetId) → Act
  | .ok target => .acquired call id target
  | .error _ => .refused call id

/-- The result of a call whose target has been given back: an error in giving it back counts only if
the call itself succeeded. -/
def afterRelease : Result → Except AopError Unit → Result
  | .error own, _ => .error own
  | .ok _, .error e => .error e
  | .ok value, .ok () => .ok value

namespace Run

variable (host : Host κ σ ν) (below : Handler κ σ ν)

/-- Settles the chain of an advised call. -/
def settleChain (proxy : Proxy) (source : Source κ) (m : MethodSignature) :
    Option (Chain κ) → Run κ σ ν (Except AopError (Chain κ))
  | some chain => return .ok chain
  | none => chainFor host below proxy.configuration m source.type

/-- Runs the chain of a call that has its target, and looks at the value. -/
def runHolding (call : Nat) (p : ProxyId) (proxy : Proxy) (source : Source κ) (m : MethodSignature)
    (arguments : List Value) (chain : Chain κ) (target : Option TargetId) : Run κ σ ν Result := do
  finishCall p proxy m target
    (← runChain host below call p m arguments target source.type chain)

/-- How a call with a settled chain takes its target, and what becomes of the target. -/
inductive Borrows (p : ProxyId) (proxy : Proxy) (id : SourceId) (source : Source κ)
    (m : MethodSignature) (arguments : List Value) (chain : Chain κ) (w : World κ σ ν) :
    Result → World κ σ ν → Prop where
  /-- The source gives no target: its error is the result, and nothing else is done. -/
  | refused {e : AopError} {v w' : World κ σ ν}
      (asked : (acquire host below id).run { w with calls := w.calls + 1 } = some (.error e, v))
      (ends : w' = v.record (.act (.refused w.calls id)))
      (course : w'.courseOf w.calls = [.refused w.calls id]) :
      Borrows p proxy id source m arguments chain w (.error e) w'
  /-- There is nothing to give back. -/
  | kept {target : Option TargetId} {outcome : Result} {inner : List Act} {v w' : World κ σ ν}
      (taken : (acquire host below id).run { w with calls := w.calls + 1 } = some (.ok target, v))
      (ran : (runHolding host below w.calls p proxy source m arguments chain target).run
        (v.record (.act (.acquired w.calls id target))) = some (outcome, w'))
      (keeps : target = none ∨ source.isStatic = true)
      (course : w'.courseOf w.calls = .acquired w.calls id target :: inner)
      (between : ∀ a ∈ inner, a.isInner = true) :
      Borrows p proxy id source m arguments chain w outcome w'
  /-- The target is given back when the call has come to its end. -/
  | givenBack {target : TargetId} {outcome : Result} {given : Except AopError Unit}
      {inner : List Act} {v u u' w' : World κ σ ν}
      (taken : (acquire host below id).run { w with calls := w.calls + 1 } =
        some (.ok (some target), v))
      (ran : (runHolding host below w.calls p proxy source m arguments chain (some target)).run
        (v.record (.act (.acquired w.calls id (some target)))) = some (outcome, u))
      (lent : source.isStatic = false)
      (returned : (release host below id target).run u = some (given, u'))
      (ends : (u'.record (.act (.released w.calls id target given.isOk))).Alike w')
      (course : w'.courseOf w.calls = .acquired w.calls id (some target) ::
        (inner ++ [.released w.calls id target given.isOk]))
      (between : ∀ a ∈ inner, a.isInner = true) :
      Borrows p proxy id source m arguments chain w (afterRelease outcome given) w'

variable {host below}

theorem runHolding_sound (hbelow : below.Sound host) {allowed : Act → Prop} {call : Nat}
    (hpermits : Permits allowed call 0) (p : ProxyId) (proxy : Proxy) (source : Source κ)
    (m : MethodSignature) (arguments : List Value) (chain : Chain κ) (target : Option TargetId) :
    Sound host allowed (call + 1)
      (runHolding host below call p proxy source m arguments chain target) :=
  (runChain_sound hbelow hpermits p m arguments target source.type chain).bind fun outcome =>
    finishCall_sound p proxy m target outcome

/-- A call that has its target does nothing but run its chain. -/
theorem runHolding_course (hbelow : below.Sound host) {call : Nat} {p : ProxyId} {proxy : Proxy}
    {source : Source κ} {m : MethodSignature} {arguments : List Value} {chain : Chain κ}
    {target : Option TargetId} {w w' : World κ σ ν} {outcome : Result}
    (h : (runHolding host below call p proxy source m arguments chain target).run w =
      some (outcome, w')) (hcall : call < w.calls) :
    call < w'.calls ∧
      ∃ inner, w'.courseOf call = w.courseOf call ++ inner ∧ ∀ a ∈ inner, a.isInner = true := by
  have hpermits : Permits (fun a => a.call = call → a.isInner = true) call 0 := by
    refine ⟨fun a ha hsame => ?_, fun _ _ _ _ => rfl, fun _ _ _ _ => rfl, fun _ _ _ _ _ => rfl⟩
    exact absurd hsame (Nat.ne_of_gt ha)
  have hsound := runHolding_sound hbelow hpermits p proxy source m arguments chain target w hcall
  obtain ⟨inner, hinner, hall⟩ := (hsound.leads h).course call
  refine ⟨Nat.lt_of_lt_of_le hcall (hsound.leads h).later.calls, inner, hinner, fun a ha => ?_⟩
  exact (hall a ha).2.1 (hall a ha).1

/-- Giving a target back asks its source once; the error of the call goes before the source's. -/
theorem releaseFor_lent (hbelow : below.Sound host) {call : Nat} {id : SourceId}
    {source : Source κ} {target : TargetId} {m : MethodSignature} {outcome result : Result}
    {w w' : World κ σ ν} (hlent : source.isStatic = false)
    (h : (releaseFor host below call id source (some target) m outcome).run w =
      some (result, w')) (hcall : call < w.calls) :
    ∃ given v, (release host below id target).run w = some (given, v) ∧
      result = afterRelease outcome given ∧
      (v.record (.act (.released call id target given.isOk))).Alike w' ∧
      w'.courseOf call = w.courseOf call ++ [.released call id target given.isOk] := by
  rw [releaseFor] at h
  simp only [hlent] at h
  obtain ⟨given, v, hv, hrest⟩ := run_bind_eq_some.mp h
  obtain ⟨_, v₁, hrecord, hend⟩ := run_bind_eq_some.mp hrest
  cases hrecord
  have hsound : Sound host (call < ·.call) (call + 1) (release host below id target) :=
    release_sound hbelow (fun _ ha => ha) id target
  have hsame := hsound.course_eq hv hcall fun a ha => Nat.ne_of_gt ha
  have hcourse : (v.record (.act (.released call id target given.isOk))).courseOf call =
      w.courseOf call ++ [.released call id target given.isOk] := by
    rw [← hsame]
    exact World.courseOf_record_act v rfl
  refine ⟨given, v, hv, ?_⟩
  cases given with
  | ok _ =>
      cases hend
      refine ⟨?_, .refl _, hcourse⟩
      cases outcome with
      | ok value => rfl
      | error own => rfl
  | error e =>
      obtain ⟨_, v₂, hlog, hlast⟩ := run_bind_eq_some.mp hend
      cases hlog
      rw [← hcourse]
      cases outcome with
      | ok value =>
          cases hlast
          exact ⟨rfl, World.alike_record_line _ _,
            World.courseOf_record_other _ fun a ha => by cases ha⟩
      | error own =>
          cases hlast
          exact ⟨rfl, World.alike_record_line _ _,
            World.courseOf_record_other _ fun a ha => by cases ha⟩

theorem acquireFor_run {call : Nat} {id : SourceId}
    {acquired : Except AopError (Option TargetId)} {w w' : World κ σ ν}
    (h : (acquireFor host below call id).run w = some (acquired, w')) :
    ∃ v, (acquire host below id).run w = some (acquired, v) ∧
      w' = v.record (.act (.ofAcquisition call id acquired)) := by
  obtain ⟨found, v, hv, hrest⟩ := run_bind_eq_some.mp h
  cases found with
  | ok target =>
      cases hrest
      exact ⟨v, hv, rfl⟩
  | error e =>
      cases hrest
      exact ⟨v, hv, rfl⟩

/-- A call with a settled chain borrows its target. -/
theorem runSettled_borrows (hbelow : below.Sound host) {p : ProxyId} {proxy : Proxy}
    {id : SourceId} {source : Source κ} {m : MethodSignature} {arguments : List Value}
    {chain : Chain κ} {w w' : World κ σ ν} {result : Result} (hw : w.WellFormed)
    (h : (runSettled host below p proxy id source m arguments chain).run w = some (result, w')) :
    Borrows host below p proxy id source m arguments chain w result w' := by
  obtain ⟨call, v₀, hbegin, hrest⟩ := run_bind_eq_some.mp h
  cases hbegin
  obtain ⟨acquired, v₁, hacquire, hrun⟩ := run_bind_eq_some.mp hrest
  obtain ⟨v, htaken, rfl⟩ := acquireFor_run hacquire
  have hsound : Sound host (w.calls < ·.call) (w.calls + 1) (acquire host below id) :=
    acquire_sound hbelow (fun _ ha => ha) id
  have hcalls : w.calls < v.calls := ((hsound _ (Nat.le_refl _)).leads htaken).later.calls
  have hnothing : v.courseOf w.calls = [] :=
    (hsound.course_eq htaken (Nat.le_refl _) fun a ha => Nat.ne_of_gt ha).trans
      (hw.numbered w.calls (Nat.le_refl _))
  have hasked : (v.record (.act (.ofAcquisition w.calls id acquired))).courseOf w.calls =
      [.ofAcquisition w.calls id acquired] := by
    rw [World.courseOf_record, hnothing]
    cases acquired with
    | ok target => exact if_pos rfl
    | error e => exact if_pos rfl
  cases acquired with
  | error e =>
      cases hrun
      exact .refused htaken rfl hasked
  | ok target =>
      obtain ⟨ran, v₂, hran, hfinishes⟩ := run_bind_eq_some.mp hrun
      obtain ⟨outcome, u, hfinish, hrelease⟩ := run_bind_eq_some.mp hfinishes
      have hheld : (runHolding host below w.calls p proxy source m arguments chain target).run
          (v.record (.act (.acquired w.calls id target))) = some (outcome, u) :=
        run_bind_eq_some.mpr ⟨ran, v₂, hran, hfinish⟩
      obtain ⟨hheldCalls, inner, hinner, hall⟩ := runHolding_course hbelow hheld hcalls
      have hcourse : u.courseOf w.calls = .acquired w.calls id target :: inner :=
        hinner.trans (congrArg (· ++ inner) hasked)
      by_cases hkeeps : target = none ∨ source.isStatic = true
      · rw [releaseFor_kept hkeeps] at hrelease
        cases hrelease
        exact .kept htaken hheld hkeeps hcourse hall
      · obtain ⟨hsome, hlent⟩ := not_or.mp hkeeps
        obtain ⟨target, rfl⟩ := Option.ne_none_iff_exists'.mp hsome
        have hlent : source.isStatic = false := Bool.eq_false_iff.mpr hlent
        obtain ⟨given, u', hgiven, rfl, hends, hgave⟩ :=
          releaseFor_lent hbelow hlent hrelease hheldCalls
        refine .givenBack htaken hheld hlent hgiven hends ?_ hall
        rw [hgave, hcourse]
        rfl

/-- An advised call asks its source for a target at most once: not at all when its chain cannot be
settled, and else once, with the chain settled and none of it run.  What it took it gives back once
after everything else, unless it took nothing or the source is static. -/
theorem invokeAdvised_borrows (host : Host κ σ ν) (depth : Nat) (p : ProxyId) (proxy : Proxy)
    (c : Configuration κ) (source : Source κ) (m : MethodSignature) (arguments : List Value)
    (fixed : Option (Chain κ)) (w w' : World κ σ ν) (result : Result)
    (hw : World.Reachable host w)
    (h : (invokeAdvised host (answer host depth) p proxy c source m arguments fixed).run w =
      some (result, w')) :
    (∃ e v, (settleChain host (answer host depth) proxy source m fixed).run
          (w.exposing c.flags.exposeProxy p) = some (.error e, v) ∧
        result = .error e ∧ w' = v.restoring c.flags.exposeProxy w.current) ∨
      ∃ chain v v', (settleChain host (answer host depth) proxy source m fixed).run
          (w.exposing c.flags.exposeProxy p) = some (.ok chain, v) ∧
        Borrows host (answer host depth) p proxy c.source source m arguments chain v result v' ∧
        w' = v'.restoring c.flags.exposeProxy w.current := by
  have hbelow := answer_sound host depth
  obtain ⟨v', hbody, rfl⟩ := whileExposed_eq_some h
  have hexposed := hw.exposing c.flags.exposeProxy p
  cases fixed with
  | some chain =>
      exact .inr ⟨chain, _, v', rfl, runSettled_borrows hbelow hexposed.wellFormed hbody, rfl⟩
  | none =>
      obtain ⟨settled, v, hsettled, hrun⟩ := run_bind_eq_some.mp hbody
      cases settled with
      | error e =>
          cases hrun
          exact .inl ⟨e, v', hsettled, rfl, rfl⟩
      | ok chain =>
          have hv : v.WellFormed :=
            (Sound.reachable (chainFor_sound hbelow (fun _ _ => trivial) proxy.configuration m
              source.type) hsettled hexposed).wellFormed
          exact .inr ⟨chain, v, v', hsettled, runSettled_borrows hbelow hv hrun, rfl⟩

section Lending

/-- A source that gives its only target to everyone and cannot take it back. -/
def lendingHost : Host Unit Unit Unit :=
  { Host.idle with
    acquire := fun _ => return .ok (some 0)
    release := fun _ _ => return .error .proxyNotExposed }

def lendingSource : Source Unit :=
  .custom { name := "lending", type := some .root, isStatic := false } ()

def lendingWorld : World Unit Unit Unit :=
  { World.initial () with targets := #[⟨.root, ()⟩], sources := #[lendingSource] }

def lendingProxy : Proxy := ⟨0, .contracts (.of []), []⟩

def lendingConfiguration : Configuration Unit := .initial {} 0 [] (.standard .standard)

/-- A call that succeeds ends with the error of its source, which cannot take the target back. -/
theorem invokeAdvised_borrows_lending :
    ∃ w' v v', (invokeAdvised lendingHost (answer lendingHost 1) 0 lendingProxy
        lendingConfiguration lendingSource .finalizer [] (some [])).run lendingWorld =
          some (.error .proxyNotExposed, w') ∧
      Borrows lendingHost (answer lendingHost 1) 0 lendingProxy 0 lendingSource .finalizer [] [] v
        (.error .proxyNotExposed) v' := by
  have hreachable : World.Reachable lendingHost lendingWorld :=
    ((World.Reachable.initial ()).step (.madeTarget (t := ⟨.root, ()⟩))).step
      (.madeSource (s := lendingSource))
  obtain ⟨w', hrun⟩ : ∃ w', (invokeAdvised lendingHost (answer lendingHost 1) 0 lendingProxy
      lendingConfiguration lendingSource .finalizer [] (some [])).run lendingWorld =
        some (.error .proxyNotExposed, w') := ⟨_, rfl⟩
  rcases invokeAdvised_borrows lendingHost 1 0 lendingProxy lendingConfiguration lendingSource
    .finalizer [] (some []) lendingWorld w' _ hreachable hrun with
    ⟨e, v, hsettled, _⟩ | ⟨chain, v, v', hsettled, hborrows, _⟩
  · cases hsettled
  · cases hsettled
    exact ⟨w', _, v', hrun, hborrows⟩

end Lending

end Run

end Weaving
