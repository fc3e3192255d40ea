import Weaving.Proofs.Introductions
import Weaving.Proofs.ReturnedTargets

/-
Calls with a settled chain, told from beginning to end.  Such a call takes a target from its source,
has the chain attended to by one server, looks at the outcome, and gives the target back.  Each step
starts from the world that the one before has left.
-/
namespace Weaving

variable {κ σ ν : Type}

theorem afterRelease_ok (result : Result) : afterRelease result (.ok ()) = result := by
  cases result with
  | ok value => rfl
  | error e => rfl

/-- Where all advice passes the calls of a method on, the target serves them with their own arguments.
-/
theorem Meets.target_of_passesOn {host : Host κ σ ν} {m : MethodSignature} {type : TypeInfo}
    {chain : Chain κ} {index : Nat} {arguments last : List Value} {server : Server}
    (h : Meets host m type chain index arguments server last) (hchain : chain.PassesOn host m) :
    server = .target ∧ last = arguments := by
  refine ⟨?_, h.keeps fun entry hentry => .inr (hchain entry hentry)⟩
  cases server with
  | target => rfl
  | delegate position d =>
      obtain ⟨entry, hentry, ⟨interfaces, haction, hintroduced⟩, _⟩ := h.served_covers
      have hpasses := hchain entry (List.mem_of_getElem? hentry)
      rw [haction] at hpasses
      exact absurd (hintroduced.symm.trans hpasses) nofun

namespace Run

variable {host : Host κ σ ν} {below : Handler κ σ ν} {p : ProxyId} {proxy : Proxy} {id : SourceId}
  {source : Source κ} {m : MethodSignature} {arguments : List Value} {chain : Chain κ}
  {target : Option TargetId} {w w' : World κ σ ν} {result : Result}

/-- What becomes, at the end of a call, of what the call has taken from its source. -/
inductive GivesBack (host : Host κ σ ν) (below : Handler κ σ ν) (call : Nat) (id : SourceId)
    (source : Source κ) (w : World κ σ ν) :
    Option TargetId → Except AopError Unit → World κ σ ν → Prop where
  /-- Nothing was taken. -/
  | nothing : GivesBack host below call id source w none (.ok ()) w
  /-- A static source takes nothing back. -/
  | kept {t : TargetId} (static : source.isStatic = true) :
      GivesBack host below call id source w (some t) (.ok ()) w
  /-- The source takes the target back, or fails to. -/
  | returned {t : TargetId} {given : Except AopError Unit} {v w' : World κ σ ν}
      (lent : source.isStatic = false)
      (ran : (release host below id t).run w = some (given, v))
      (ends : (v.record (.act (.released call id t given.isOk))).Alike w') :
      GivesBack host below call id source w (some t) given w'

/-- A call with a settled chain, attended to by a server, from the world in which the chain was
settled to the one in which the target has been given back. -/
inductive Answered (host : Host κ σ ν) (below : Handler κ σ ν) (p : ProxyId) (proxy : Proxy)
    (id : SourceId) (source : Source κ) (m : MethodSignature) (arguments : List Value)
    (chain : Chain κ) (w : World κ σ ν) (target : Option TargetId) (server : Server)
    (last : List Value) (own : Result) (given : Except AopError Unit) (result : Result)
    (w' : World κ σ ν) : Prop where
  | intro {phase : Option Phase} {outcome delivered : Result} {v x y : World κ σ ν}
      (taken : (acquire host below id).run { w with calls := w.calls + 1 } = some (.ok target, v))
      (meets : Meets host m (Chain.effectiveType m source.type) chain 0 arguments server last)
      (ran : (runChain host below w.calls p m arguments target source.type chain).run
        (v.record (.act (.acquired w.calls id target))) = some (outcome, x))
      -- on the way the server is visited, and nobody else
      (visits : Visits host below (server.Allows w.calls) w.calls m
        (server.visits target last phase own) (v.record (.act (.acquired w.calls id target))) x)
      (nobody : server = .target → target = none → own = .error (.noTarget m.text))
      (gives : outcome = translateUndeclared m (server.gives (some p) own))
      (looked : (finishCall p proxy m target outcome).run x = some (delivered, y))
      (delivers : Delivers p proxy m target outcome delivered)
      (givesBack : GivesBack host below w.calls id source y target given w')
      (ends : result = afterRelease delivered given)
      -- all that the call reached is its server, once, and it entered nothing further in
      (course : ∃ more, w'.courseOf w.calls = w.courseOf w.calls ++ more ∧
        more.filter Act.isReaching =
          (server.visits target last phase own).map (Visit.act w.calls) ∧
        ∀ position running, .entered w.calls position running ∈ more → server.ComesFrom position) :
      Answered host below p proxy id source m arguments chain w target server last own given result
        w'

/-- How a call through introductions and advice that forwards is responded to. -/
inductive Responds (host : Host κ σ ν) (below : Handler κ σ ν) (p : ProxyId) (proxy : Proxy)
    (id : SourceId) (source : Source κ) (m : MethodSignature) (arguments : List Value)
    (chain : Chain κ) (w : World κ σ ν) : Result → World κ σ ν → Prop where
  /-- The source fails to give a target; then nothing else is done. -/
  | refused {e : AopError} {v : World κ σ ν}
      (asked : (acquire host below id).run { w with calls := w.calls + 1 } = some (.error e, v))
      (course : (v.record (.act (.refused w.calls id))).courseOf w.calls =
        w.courseOf w.calls ++ [.refused w.calls id]) :
      Responds host below p proxy id source m arguments chain w (.error e)
        (v.record (.act (.refused w.calls id)))
  | answered {target : Option TargetId} {server : Server} {last : List Value} {own : Result}
      {given : Except AopError Unit} {result : Result} {w' : World κ σ ν}
      (answered : Answered host below p proxy id source m arguments chain w target server last own
        given result w') :
      Responds host below p proxy id source m arguments chain w result w'

/-- Giving back what was taken is at most one act of the call. -/
theorem releaseFor_givesBack (hbelow : below.Sound host) {call : Nat} {delivered : Result}
    (hcall : call < w.calls)
    (h : (releaseFor host below call id source target m delivered).run w = some (result, w')) :
    ∃ given more, GivesBack host below call id source w target given w' ∧
      result = afterRelease delivered given ∧ w'.courseOf call = w.courseOf call ++ more ∧
      ∀ a ∈ more, ∃ t ok, a = .released call id t ok := by
  by_cases hkeeps : target = none ∨ source.isStatic = true
  · rw [releaseFor_kept hkeeps] at h
    cases h
    refine ⟨.ok (), [], ?_, (afterRelease_ok _).symm, (List.append_nil _).symm, nofun⟩
    cases target with
    | none => exact .nothing
    | some t => exact .kept (hkeeps.resolve_left nofun)
  · obtain ⟨hsome, hlent⟩ := not_or.mp hkeeps
    obtain ⟨t, rfl⟩ := Option.ne_none_iff_exists'.mp hsome
    have hlent : source.isStatic = false := Bool.eq_false_iff.mpr hlent
    obtain ⟨given, v, hgiven, hresult, hends, hcourse⟩ := releaseFor_lent hbelow hlent h hcall
    refine ⟨given, _, .returned hlent hgiven hends, hresult, hcourse, fun a ha => ?_⟩
    exact ⟨t, given.isOk, List.mem_singleton.mp ha⟩

/-- A chain of introductions and forwarding advice has the call served by the one that it meets. -/
theorem runChain_attends (hbelow : below.Sound host) {call : Nat} {type : Option TypeInfo}
    (hchain : chain.IntroducesOrForwards host m) (hcall : call < w.calls)
    (h : (runChain host below call p m arguments target type chain).run w = some (result, w')) :
    ∃ server last own phase,
      Meets host m (Chain.effectiveType m type) chain 0 arguments server last ∧
      Visits host below (server.Allows call) call m (server.visits target last phase own) w w' ∧
      (server = .target → target = none → own = .error (.noTarget m.text)) ∧
      result = translateUndeclared m (server.gives (some p) own) := by
  cases chain with
  | nil =>
      obtain ⟨_, v, hlog, h⟩ := run_bind_eq_some.mp h
      cases hlog
      have hlogging {line : LogLine} {allowed : Act → Prop} :
          w.Leads host allowed (w.record (.logged line)) :=
        (World.Step.recorded fun _ ha => by cases ha).leads
      cases target with
      | none =>
          cases h
          exact ⟨.target, arguments, _, none, .target, .none hlogging, fun _ _ => rfl, rfl⟩
      | some t =>
          obtain ⟨_, v, hrecord, h⟩ := run_bind_eq_some.mp h
          obtain ⟨own, v', hown, hend⟩ := run_bind_eq_some.mp h
          cases hrecord
          cases hend
          refine ⟨.target, arguments, own, none, .target, ?_, nofun, rfl⟩
          exact (Visits.once (w := w.record _) hbelow hcall hown).2.before hlogging
  | cons entry rest =>
      obtain ⟨⟨own, jp'⟩, v, hrun, hend⟩ := run_bind_eq_some.mp h
      cases hend
      have hends : AtCall.Ends (AtCall.invoke host below) ⟨_, w⟩ own ⟨jp', w'⟩ := hrun
      obtain ⟨hmeets, hattends, hgives⟩ := AtCall.chain_serves hbelow hchain ⟨rfl, hcall⟩
        (AtCall.ends_get_bind_iff.mp hends)
      exact ⟨_, _, _, _, hmeets, hattends.visits, hattends.nobody, hgives⟩

/-- The acts of a call that a server attends to. -/
theorem Visits.course_served (hbelow : below.Sound host) {call : Nat} {server : Server}
    {visits : List Visit} (hcall : call < w.calls)
    (h : Visits host below (server.Allows call) call m visits w w') :
    w.calls ≤ w'.calls ∧ ∃ more, w'.courseOf call = w.courseOf call ++ more ∧
      more.filter Act.isReaching = visits.map (Visit.act call) ∧
      ∀ position running, .entered call position running ∈ more → server.ComesFrom position := by
  obtain ⟨hcalls, more, hmore, hreached, hothers⟩ :=
    h.course hbelow (fun _ hact hallowed => hallowed.isReaching_eq_false hact) hcall
  refine ⟨hcalls, more, hmore, hreached, fun position running hmem => ?_⟩
  exact (hothers _ hmem).elim Server.Allows.comesFrom nofun

/-- A call that begins asks its source first of all. -/
theorem acquire_first (hbelow : below.Sound host) {acquired : Except AopError (Option TargetId)}
    {v : World κ σ ν}
    (h : (acquire host below id).run { w with calls := w.calls + 1 } = some (acquired, v)) :
    w.Later v ∧ w.calls < (v.record (.act (.ofAcquisition w.calls id acquired))).calls ∧
      (v.record (.act (.ofAcquisition w.calls id acquired))).courseOf w.calls =
        w.courseOf w.calls ++ [.ofAcquisition w.calls id acquired] := by
  have hsound : Sound host (w.calls < ·.call) (w.calls + 1) (acquire host below id) :=
    acquire_sound hbelow (fun _ ha => ha) id
  have hasking := (hsound _ (Nat.le_refl _)).leads h
  have hbegun : w.Leads host (w.calls < ·.call) { w with calls := w.calls + 1 } :=
    World.Step.begun.leads
  have hnothing : v.courseOf w.calls = w.courseOf w.calls :=
    hsound.course_eq h (Nat.le_refl _) fun a ha => Nat.ne_of_gt ha
  refine ⟨(hbegun.trans hasking).later, hasking.later.calls, ?_⟩
  rw [← hnothing]
  cases acquired with
  | error e => exact World.courseOf_record_act v rfl
  | ok target => exact World.courseOf_record_act v rfl

/-- So a call with such a chain is responded to. -/
theorem runSettled_responds (hbelow : below.Sound host) (hchain : chain.IntroducesOrForwards host m)
    (h : (runSettled host below p proxy id source m arguments chain).run w = some (result, w')) :
    Responds host below p proxy id source m arguments chain w result w' := by
  obtain ⟨call, u, hbegin, h⟩ := run_bind_eq_some.mp h
  cases hbegin
  obtain ⟨acquired, u, hacquire, h⟩ := run_bind_eq_some.mp h
  obtain ⟨v, htaken, rfl⟩ := acquireFor_run hacquire
  obtain ⟨hlater, hbegun, hasked⟩ := acquire_first hbelow htaken
  cases acquired with
  | error e =>
      cases h
      exact .refused htaken hasked
  | ok target =>
      obtain ⟨outcome, x, hran, h⟩ := run_bind_eq_some.mp h
      obtain ⟨delivered, y, hfinish, hrelease⟩ := run_bind_eq_some.mp h
      obtain ⟨server, last, own, phase, hmeets, hvisits, hnobody, hgives⟩ :=
        runChain_attends hbelow hchain hbegun hran
      obtain ⟨hdelivers, hsame⟩ := finishCall_eq_some hfinish
      obtain ⟨hcalls, inner, hinner, hreached, hentered⟩ := hvisits.course_served hbelow hbegun
      have hgoing : w.calls < y.calls := by
        rw [hsame.calls]
        exact Nat.lt_of_lt_of_le hbegun hcalls
      obtain ⟨given, final, hgivesBack, hresult, hgave, hreleased⟩ :=
        releaseFor_givesBack hbelow hgoing hrelease
      refine .answered (.intro htaken hmeets hran hvisits hnobody hgives hfinish hdelivers hgivesBack
        hresult ⟨.acquired w.calls id target :: (inner ++ final), ?_, ?_, ?_⟩)
      · rw [hgave, hsame.courseOf, hinner, hasked, List.append_assoc, List.append_assoc]
        rfl
      · have hnothing : final.filter Act.isReaching = [] := by
          refine List.filter_eq_nil_iff.mpr fun a ha => ?_
          obtain ⟨t, ok, rfl⟩ := hreleased a ha
          exact Bool.false_ne_true
        rw [List.filter_cons_of_neg Bool.false_ne_true, List.filter_append, hreached, hnothing,
          List.append_nil]
      · intro position running hmem
        rcases List.mem_append.mp ((List.mem_cons.mp hmem).resolve_left nofun) with hin | hlast
        · exact hentered position running hin
        · obtain ⟨t, ok, hact⟩ := hreleased _ hlast
          cases hact

namespace Answered

variable {server : Server} {last : List Value} {own : Result} {given : Except AopError Unit}

theorem meets (h : Answered host below p proxy id source m arguments chain w target server last own
    given result w') :
    Meets host m (Chain.effectiveType m source.type) chain 0 arguments server last := by
  obtain ⟨_, meets⟩ := h
  exact meets

theorem nobody (h : Answered host below p proxy id source m arguments chain w target server last own
    given result w') (hserver : server = .target) (htarget : target = none) :
    own = .error (.noTarget m.text) := by
  obtain ⟨_, _, _, _, nobody⟩ := h
  exact nobody hserver htarget

/-- Nothing that was taken is nothing to give back. -/
theorem nothing_given (h : Answered host below p proxy id source m arguments chain w target server
    last own given result w') (htarget : target = none) : given = .ok () := by
  obtain ⟨_, _, _, _, _, _, _, _, givesBack⟩ := h
  subst htarget
  cases givesBack
  rfl

/-- The client gets what is made of the server's own result, unless giving the target back fails. -/
theorem delivers (h : Answered host below p proxy id source m arguments chain w target server last
    own given result w') :
    ∃ delivered, Delivers p proxy m target (translateUndeclared m (server.gives (some p) own))
      delivered ∧ result = afterRelease delivered given := by
  obtain ⟨_, _, _, _, _, gives, _, delivers, _, ends, _⟩ := h
  exact ⟨_, gives ▸ delivers, ends⟩

/-- What the client gets depends on nothing but the server's own result and on whether the target
could be given back. -/
theorem same {below' : Handler κ σ ν} {id' : SourceId} {source' : Source κ} {chain' : Chain κ}
    {arguments' last' : List Value} {result' : Result} {u u' : World κ σ ν}
    (h : Answered host below p proxy id source m arguments chain w target server last own given
      result w')
    (h' : Answered host below' p proxy id' source' m arguments' chain' u target server last' own
      given result' u') : result' = result := by
  obtain ⟨delivered, hdelivers, rfl⟩ := h.delivers
  obtain ⟨delivered', hdelivers', rfl⟩ := h'.delivers
  rw [hdelivers.unique hdelivers']

end Answered

end Run

end Weaving
