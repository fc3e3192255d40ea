import Mathlib.Order.Bounds.Defs
import Weaving.Proofs.Forwarding
import Weaving.Proofs.Visits

/-
Retrying.  An interceptor that retries proceeds until it gets something else than a business failure
or has no attempts left, and answers what it got last.  Where such interceptors stand inside each
other, among advice that forwards, each attempt of an outer one goes through all attempts of the
inner ones, so the target is visited as often as their limits multiply to, and no more than that.
-/
namespace Weaving

variable {κ σ ν : Type}

/-- A result is a failure of an interceptor or a target, and not an error of the engine's own. -/
def IsFailure (own : Result) : Prop := ∃ e, own = .error e ∧ e.isFailure = true

theorem not_isFailure_ok (value : Option Value) : ¬ IsFailure (.ok value) := by
  rintro ⟨e, he, _⟩
  cases he

theorem isFailure_error_iff {e : AopError} : IsFailure (.error e) ↔ e.isFailure = true := by
  constructor
  · rintro ⟨_, he, hfailure⟩
    cases he
    exact hfailure
  · intro hfailure
    exact ⟨e, rfl, hfailure⟩

/-- Wrapping makes no difference to whether a result is a failure. -/
theorem isFailure_translateUndeclared {m : MethodSignature} {own : Result} :
    IsFailure (translateUndeclared m own) ↔ IsFailure own := by
  unfold translateUndeclared
  split
  · split
    · split
      · rfl
      · rw [isFailure_error_iff, isFailure_error_iff]
        rfl
    · rfl
  · rfl

/-- The line that tells of an attempt that failed. -/
def attemptLine (limit attempt : Nat) (m : MethodSignature) (e : AopError) : LogLine :=
  ⟨.warn, "Attempt " ++ toString attempt ++ "/" ++ toString limit ++ " of " ++ m.text ++ " failed: "
    ++ e.display, []⟩

/-- Proceeding for the `k`-th time is to be the last, given what proceeding has come to. -/
def IsLastAttempt (limit : Nat) (outcomes : List Result) (k : Nat) : Prop :=
  1 ≤ k ∧ (k = limit ∨ ∃ own, outcomes[k - 1]? = some own ∧ ¬ IsFailure own)

/-- The last attempt is the first that may be, if all before it failed. -/
theorem isLeast_lastAttempt_iff {limit : Nat} {earlier : List Result} {own : Result}
    (hlimit : 1 ≤ limit) :
    IsLeast { k | IsLastAttempt limit (earlier ++ [own]) k } (earlier.length + 1) ↔
      (∀ failed ∈ earlier, IsFailure failed) ∧
        (earlier.length + 1 = limit ∨ earlier.length + 1 < limit ∧ ¬ IsFailure own) := by
  have hlast : (earlier ++ [own])[earlier.length]? = some own := by simp
  constructor
  · rintro ⟨⟨_, hends⟩, hleast⟩
    have hle : earlier.length + 1 ≤ limit := hleast ⟨hlimit, .inl rfl⟩
    refine ⟨fun failed hfailed => ?_, ?_⟩
    · obtain ⟨k, hk⟩ := List.mem_iff_getElem?.mp hfailed
      refine Classical.byContradiction fun hother => ?_
      have hlt : k < earlier.length := (List.getElem?_eq_some_iff.mp hk).1
      have hearly : earlier.length + 1 ≤ k + 1 :=
        hleast ⟨Nat.le_add_left 1 k,
          .inr ⟨failed, (List.getElem?_append_left hlt).trans hk, hother⟩⟩
      omega
    · rcases hends with hends | ⟨other, hother, hfine⟩
      · exact .inl hends
      · rw [Nat.add_sub_cancel, hlast] at hother
        cases hother
        exact (Nat.eq_or_lt_of_le hle).imp_right fun hlt => ⟨hlt, hfine⟩
  · rintro ⟨hfailed, hends⟩
    refine ⟨⟨Nat.le_add_left 1 _, ?_⟩, ?_⟩
    · rcases hends with hends | ⟨_, hfine⟩
      · exact .inl hends
      · exact .inr ⟨own, hlast, hfine⟩
    · rintro k ⟨hk, rfl | ⟨other, hother, hfine⟩⟩
      · omega
      · refine Nat.le_of_not_lt fun hlt => ?_
        have hin : k - 1 < earlier.length := by omega
        rw [List.getElem?_append_left hin] at hother
        exact hfine (hfailed other (List.mem_of_getElem? hother))

namespace AtCall

/-- Proceeding several times in a row: these are the outcomes of all times but the last, each of
them told of in the log, and the outcome of the last. -/
inductive Attempts (limit : Nat) (proceed : AtCall κ σ ν Result) :
    Nat → Moment κ σ ν → List Result → Result → Moment κ σ ν → Prop where
  | last {attempt : Nat} {own : Result} {s s' : Moment κ σ ν} (ran : Ends proceed s own s') :
      Attempts limit proceed attempt s [] own s'
  | again {attempt : Nat} {e : AopError} {later : List Result} {own : Result}
      {s s₁ s' : Moment κ σ ν} (failed : Ends proceed s (.error e) s₁)
      (rest : Attempts limit proceed (attempt + 1)
        (s₁.logging (attemptLine limit attempt s₁.joinPoint.method e)) later own s') :
      Attempts limit proceed attempt s (.error e :: later) own s'

variable {host : Host κ σ ν} {below : Handler κ σ ν} {proceed : AtCall κ σ ν Result}
  {s s' : Moment κ σ ν} {result : Result}

/-- While attempts remain, the first one either fails and others follow, or it is the last. -/
theorem ends_retry_succ_iff {limit attempt remaining : Nat} :
    Ends (retry limit proceed attempt (remaining + 1)) s result s' ↔
      (∃ e s₁, Ends proceed s (.error e) s₁ ∧ IsFailure (.error e) ∧
        Ends (retry limit proceed (attempt + 1) remaining)
          (s₁.logging (attemptLine limit attempt s₁.joinPoint.method e)) result s') ∨
      Ends proceed s result s' ∧ ¬ IsFailure result := by
  rw [retry, ends_bind_except_iff]
  constructor
  · rintro (⟨e, s₁, hproceed, h⟩ | ⟨value, s₁, hproceed, h⟩)
    · dsimp only at h
      split at h
      · rename_i hfailure
        exact .inl ⟨e, s₁, hproceed, isFailure_error_iff.mpr hfailure, h⟩
      · rename_i hother
        obtain ⟨rfl, rfl⟩ := ends_pure_iff.mp h
        exact .inr ⟨hproceed, mt isFailure_error_iff.mp hother⟩
    · obtain ⟨rfl, rfl⟩ := ends_pure_iff.mp h
      exact .inr ⟨hproceed, not_isFailure_ok value⟩
  · rintro (⟨e, s₁, hproceed, hfailure, h⟩ | ⟨hproceed, hother⟩)
    · refine .inl ⟨e, s₁, hproceed, ?_⟩
      dsimp only
      rw [if_pos (isFailure_error_iff.mp hfailure)]
      exact h
    · rcases result with e | value
      · refine .inl ⟨e, s', hproceed, ?_⟩
        dsimp only
        rw [if_neg (mt isFailure_error_iff.mpr hother)]
        exact ends_pure_iff.mpr ⟨rfl, rfl⟩
      · exact .inr ⟨value, s', hproceed, ends_pure_iff.mpr ⟨rfl, rfl⟩⟩

/-- Retrying is proceeding while that fails and attempts remain. -/
theorem ends_retry_iff {limit attempt remaining : Nat} :
    Ends (retry limit proceed attempt remaining) s result s' ↔
      ∃ earlier, Attempts limit proceed attempt s earlier result s' ∧
        (∀ failed ∈ earlier, IsFailure failed) ∧
        (earlier.length = remaining ∨ earlier.length < remaining ∧ ¬ IsFailure result) := by
  induction remaining generalizing attempt s with
  | zero =>
      rw [retry]
      constructor
      · intro h
        exact ⟨[], .last h, by simp, .inl rfl⟩
      · rintro ⟨earlier, hattempts, _, hlength⟩
        cases hattempts with
        | last ran => exact ran
        | again failed rest => simp at hlength
  | succ remaining ih =>
      rw [ends_retry_succ_iff]
      constructor
      · rintro (⟨e, s₁, hproceed, hfailure, h⟩ | ⟨hproceed, hother⟩)
        · obtain ⟨earlier, hrest, hfailed, hends⟩ := ih.mp h
          refine ⟨.error e :: earlier, .again hproceed hrest, ?_, by simpa using hends⟩
          exact List.forall_mem_cons.mpr ⟨hfailure, hfailed⟩
        · exact ⟨[], .last hproceed, by simp, .inr ⟨Nat.succ_pos _, hother⟩⟩
      · rintro ⟨earlier, hattempts, hfailed, hends⟩
        cases hattempts with
        | last ran => exact .inr ⟨ran, by simpa using hends⟩
        | @again _ e later _ _ s₁ _ failed rest =>
            obtain ⟨hfailure, hlater⟩ := List.forall_mem_cons.mp hfailed
            exact .inl ⟨e, s₁, failed, hfailure, ih.mpr ⟨later, rest, hlater, by simpa using hends⟩⟩

/-- An interceptor that retries makes just so many attempts. -/
theorem ends_intercept_retry_iff {limit position : Nat} :
    Ends (intercept host below (.retry limit) position proceed) s result s' ↔
      ∃ earlier, Attempts (max limit 1) proceed 1 s earlier result s' ∧
        IsLeast { k | IsLastAttempt (max limit 1) (earlier ++ [result]) k }
          (earlier.length + 1) := by
  have hlimit : 1 ≤ max limit 1 := Nat.le_max_right limit 1
  rw [intercept, ends_retry_iff]
  refine exists_congr fun earlier => and_congr_right fun _ => ?_
  rw [isLeast_lastAttempt_iff hlimit]
  refine and_congr_right fun _ => or_congr ?_ (and_congr_left fun _ => ?_)
  · omega
  · omega

end AtCall

section Visiting

/-- What happens between the visits of a call: it reaches nothing. -/
def Act.Between (call : Nat) (a : Act) : Prop := a.call = call → a.isReaching = false

theorem Act.between_of_later {call : Nat} {a : Act} (h : call < a.call) : a.Between call :=
  fun hcall => absurd hcall (Nat.ne_of_gt h)

/-- Coming to these outcomes, a call visited its target so many times at most, and just so many
times if all visits failed; then all the outcomes are failures. -/
structure Tries (host : Host κ σ ν) (below : Handler κ σ ν) (bound : Nat) (s : Moment κ σ ν)
    (outcomes : List Result) (s' : Moment κ σ ν) : Prop where
  leads : s.Leads host (fun _ => True) s'
  visits : ∃ visits,
    Run.Visits host below (Act.Between s.joinPoint.call) s.joinPoint.call s.joinPoint.method visits
      s.world s'.world ∧
    (∀ visit ∈ visits, s.joinPoint.target = some visit.object) ∧ visits.length ≤ bound ∧
    (s.joinPoint.target.isSome = true → (∀ visit ∈ visits, IsFailure visit.own) →
      visits.length = bound ∧ ∀ own ∈ outcomes, IsFailure own)

variable {host : Host κ σ ν} {below : Handler κ σ ν} {bound more : Nat} {r s s₁ s' : Moment κ σ ν}
  {outcomes further : List Result} {own result : Result} {proceed : AtCall κ σ ν Result}

namespace Tries

theorem before (hleads : r.Leads host (Act.Between r.joinPoint.call) s)
    (h : Tries host below bound s outcomes s') : Tries host below bound r outcomes s' := by
  obtain ⟨hlater, visits, hvisits, hobjects, hbound, hfailed⟩ := h
  rw [hleads.continues.target] at hobjects hfailed
  rw [hleads.continues.call, hleads.continues.method] at hvisits
  exact ⟨(hleads.mono fun _ _ => trivial).trans hlater, visits, hvisits.before hleads.world,
    hobjects, hbound, hfailed⟩

theorem after (h : Tries host below bound s outcomes s₁)
    (hleads : s₁.Leads host (Act.Between s₁.joinPoint.call) s') :
    Tries host below bound s outcomes s' := by
  obtain ⟨hearlier, visits, hvisits, hothers⟩ := h
  rw [hearlier.continues.call] at hleads
  exact ⟨hearlier.trans (hleads.mono fun _ _ => trivial), visits, hvisits.after hleads.world,
    hothers⟩

/-- Trying once more. -/
theorem append (h : Tries host below bound s outcomes s₁)
    (hmore : Tries host below more s₁ further s') :
    Tries host below (bound + more) s (outcomes ++ further) s' := by
  obtain ⟨hleads, visits, hvisits, hobjects, hbound, hfailed⟩ := h
  obtain ⟨hleads', visits', hvisits', hobjects', hbound', hfailed'⟩ := hmore
  rw [hleads.continues.target] at hobjects' hfailed'
  rw [hleads.continues.call, hleads.continues.method] at hvisits'
  refine ⟨hleads.trans hleads', visits ++ visits', hvisits.append hvisits', ?_, ?_, ?_⟩
  · exact List.forall_mem_append.mpr ⟨hobjects, hobjects'⟩
  · rw [List.length_append]
    exact Nat.add_le_add hbound hbound'
  · intro htarget hall
    obtain ⟨hfirst, hrest⟩ := List.forall_mem_append.mp hall
    obtain ⟨hlength, houtcomes⟩ := hfailed htarget hfirst
    obtain ⟨hlength', houtcomes'⟩ := hfailed' htarget hrest
    refine ⟨?_, List.forall_mem_append.mpr ⟨houtcomes, houtcomes'⟩⟩
    rw [List.length_append, hlength, hlength']

/-- What the outcome is made into makes no difference as long as a failure remains one. -/
theorem becomes (h : Tries host below bound s [own] s') (hsame : IsFailure own → IsFailure result) :
    Tries host below bound s [result] s' := by
  obtain ⟨hleads, visits, hvisits, hobjects, hbound, hfailed⟩ := h
  refine ⟨hleads, visits, hvisits, hobjects, hbound, fun htarget hall => ?_⟩
  obtain ⟨hlength, howns⟩ := hfailed htarget hall
  exact ⟨hlength, List.forall_mem_singleton.mpr (hsame (howns own (List.mem_singleton_self own)))⟩

end Tries

/-- From a moment on, proceeding visits the target so many times at most. -/
structure ProceedsUpTo (host : Host κ σ ν) (below : Handler κ σ ν) (bound : Nat)
    (proceed : AtCall κ σ ν Result) (s : Moment κ σ ν) : Prop where
  tries : ∀ {s₁ s₂ : Moment κ σ ν} {own : Result}, s.Leads host (fun _ => True) s₁ →
    AtCall.Ends proceed s₁ own s₂ → Tries host below bound s₁ [own] s₂

theorem ProceedsUpTo.later (h : ProceedsUpTo host below bound proceed s)
    (hleads : s.Leads host (fun _ => True) s₁) : ProceedsUpTo host below bound proceed s₁ where
  tries hlater hrun := h.tries (hleads.trans hlater) hrun

namespace AtCall

/-- Each attempt may visit the target as often as proceeding may. -/
theorem Attempts.tries {limit attempt : Nat} {earlier : List Result}
    (h : Attempts limit proceed attempt s earlier result s')
    (hproceeds : ProceedsUpTo host below bound proceed s) :
    Tries host below ((earlier.length + 1) * bound) s (earlier ++ [result]) s' := by
  induction h with
  | last ran =>
      rw [List.length_nil, Nat.zero_add, Nat.one_mul]
      exact hproceeds.tries (.refl _) ran
  | @again attempt e later own s s₁ s' failed _ ih =>
      have hfirst := hproceeds.tries (.refl _) failed
      have hlogged : s₁.Leads host (Act.Between s₁.joinPoint.call) (s₁.logging _) :=
        Moment.logging_leads (attemptLine limit attempt s₁.joinPoint.method e)
      have hrest := ih (hproceeds.later (hfirst.leads.trans (hlogged.mono fun _ _ => trivial)))
      have hcount : (later.length + 1 + 1) * bound = bound + (later.length + 1) * bound := by
        rw [Nat.succ_mul, Nat.add_comm]
      rw [List.length_cons, hcount]
      exact hfirst.append (hrest.before hlogged)

/-- An interceptor that retries multiplies the visits. -/
theorem retry_tries {limit position : Nat} (hproceeds : ProceedsUpTo host below bound proceed s)
    (h : Ends (intercept host below (.retry limit) position proceed) s own s') :
    Tries host below (max limit 1 * bound) s [own] s' := by
  rw [intercept, ends_retry_iff] at h
  obtain ⟨earlier, hattempts, hfailed, hends⟩ := h
  obtain ⟨hleads, visits, hvisits, hobjects, hbound, hall⟩ := hattempts.tries hproceeds
  have hle : earlier.length + 1 ≤ max limit 1 := by omega
  refine ⟨hleads, visits, hvisits, hobjects,
    Nat.le_trans hbound (Nat.mul_le_mul_right bound hle), fun htarget hfails => ?_⟩
  obtain ⟨hlength, houtcomes⟩ := hall htarget hfails
  have hown : IsFailure own := houtcomes own (by simp)
  have hlast : earlier.length + 1 = max limit 1 := by
    rcases hends with hends | ⟨_, hother⟩
    · omega
    · exact absurd hown hother
  exact ⟨hlast ▸ hlength, List.forall_mem_singleton.mpr hown⟩

end AtCall

/-- How often an interceptor lets the call proceed at most. -/
def Action.attempts : Action κ → Nat
  | .retry limit => max limit 1
  | _ => 1

theorem Action.Forwards.attempts_eq {m : MethodSignature} {action : Action κ}
    (h : action.Forwards host m) : action.attempts = 1 := by
  cases action with
  | retry limit => exact Nat.max_eq_right h
  | _ => rfl

/-- An entry for every call, whose interceptor retries or forwards the calls of a method. -/
def ChainEntry.RetriesOrForwards (host : Host κ σ ν) (m : MethodSignature) (entry : ChainEntry κ) :
    Prop :=
  ∃ i, entry = .settled i ∧ ((∃ limit, i.action = .retry limit) ∨ i.action.Forwards host m)

/-- The product of the limits of a chain. -/
def Chain.attempts : Chain κ → Nat
  | [] => 1
  | entry :: rest => entry.interceptor.action.attempts * Chain.attempts rest

namespace AtCall

variable {m : MethodSignature} {chain : Chain κ} {index call : Nat}

theorem intercept_tries (hbelow : below.Sound host) {action : Action κ} {position : Nat}
    (hsound : Sound host (fun _ => True) call proceed)
    (hproceeds : ProceedsUpTo host below bound proceed s) (hs : s.During call)
    (haction : (∃ limit, action = .retry limit) ∨ action.Forwards host s.joinPoint.method)
    (h : Ends (intercept host below action position proceed) s own s') :
    Tries host below (action.attempts * bound) s [own] s' := by
  rcases haction with ⟨limit, rfl⟩ | hforwards
  · exact retry_tries hproceeds h
  · obtain ⟨s₁, s₂, hbefore, _, hproceed, hafter⟩ :=
      intercept_handsOn hbelow hsound hforwards hs h
    have hfirst : s.Leads host (Act.Between s.joinPoint.call) s₁ := by
      refine hbefore.mono fun a ha => ?_
      rw [hs.number]
      exact Act.between_of_later ha
    have htries := hproceeds.tries (hfirst.mono fun _ _ => trivial) hproceed
    rw [hforwards.attempts_eq, Nat.one_mul]
    refine (htries.after (hafter.mono fun a ha => ?_)).before hfirst
    rw [htries.leads.continues.call, hfirst.continues.call, hs.number]
    exact Act.between_of_later ha

theorem TargetAnswers.tries (hbelow : below.Sound host) (hs : s.During call)
    (h : TargetAnswers host below s own s') : Tries host below 1 s [own] s' := by
  obtain ⟨hleads, hvisits, _⟩ := h.visits hbelow hs
  refine ⟨hleads, _, hvisits, ?_⟩
  cases s.joinPoint.target with
  | none => exact ⟨nofun, Nat.zero_le 1, nofun⟩
  | some t =>
      refine ⟨List.forall_mem_singleton.mpr rfl, Nat.le_refl 1, fun _ hfailed => ⟨rfl, ?_⟩⟩
      exact List.forall_mem_singleton.mpr (hfailed _ (List.mem_singleton_self _))

/-- A chain visits its target as often as its limits multiply to, at most. -/
theorem chain_tries (hbelow : below.Sound host)
    (hchain : ∀ entry ∈ chain, entry.RetriesOrForwards host s.joinPoint.method)
    (hs : s.During call)
    (h : Ends (translated index (proceedFrom host below chain index)) s result s') :
    Tries host below chain.attempts s [result] s' := by
  induction chain generalizing index s result s' with
  | nil =>
      obtain ⟨own, s₁, hanswers, rfl, rfl⟩ := ends_nil_iff.mp h
      have htries := hanswers.tries hbelow hs
      have hleaving : s₁.Leads host (Act.Between s₁.joinPoint.call) (s₁.leaving index own) :=
        Moment.leaving_leads (fun _ => rfl) (htries.leads.during hs)
      exact (htries.after hleaving).becomes isFailure_translateUndeclared.mpr
  | cons entry rest ih =>
      obtain ⟨⟨i, rfl, haction⟩, hrest⟩ := List.forall_mem_cons.mp hchain
      obtain ⟨own, s₁, hintercept, rfl, rfl⟩ := (ends_cons_iff rfl).mp h
      have hsound : Sound host (fun _ => True) call
          (translated (index + 1) (proceedFrom host below rest (index + 1))) :=
        translated_sound (.anything call _) (proceedFrom_sound hbelow rest _ (.anything call _))
      have hentering : s.Leads host (Act.Between s.joinPoint.call) (s.entering index) :=
        Moment.entering_leads (fun _ => rfl) hs
      have hproceeds : ProceedsUpTo host below (Chain.attempts rest)
          (translated (index + 1) (proceedFrom host below rest (index + 1)))
          (s.entering index) := by
        refine ⟨fun hleads hproceed => ih ?_ (hleads.during (hentering.during hs)) hproceed⟩
        rw [hleads.continues.method]
        exact hrest
      have htries :=
        intercept_tries hbelow hsound hproceeds (hentering.during hs) haction hintercept
      have hleaving : s₁.Leads host (Act.Between s₁.joinPoint.call) (s₁.leaving index own) :=
        Moment.leaving_leads (fun _ => rfl) (htries.leads.during (hentering.during hs))
      exact ((htries.before hentering).after hleaving).becomes isFailure_translateUndeclared.mpr

/-- An interceptor that retries proceeds until the first time that may be the last: when its limit,
which is at least one, is reached, or when proceeding came to something else than a business
failure; and it answers what that time came to.  Where all interceptors of a chain either retry or
forward, a call visits its target as often as the limits multiply to, at most, and just as often if
all visits failed. -/
theorem retries_multiply (host : Host κ σ ν) (depth : Nat) :
    (∀ (limit position : Nat) (proceed : AtCall κ σ ν Result) (s s' : Moment κ σ ν)
        (result : Result),
      Ends (intercept host (Run.answer host depth) (.retry limit) position proceed) s result s' ↔
        ∃ earlier, Attempts (max limit 1) proceed 1 s earlier result s' ∧
          IsLeast { k | IsLastAttempt (max limit 1) (earlier ++ [result]) k }
            (earlier.length + 1)) ∧
    ∀ (jp : JoinPoint κ) (w : World κ σ ν) (result : Result) (s' : Moment κ σ ν),
      jp.call < w.calls → (∀ entry ∈ jp.chain, entry.RetriesOrForwards host jp.method) →
      Ends (invoke host (Run.answer host depth)) ⟨jp, w⟩ result s' →
      ∃ (visits : List Visit) (more : List Act),
        Run.Visits host (Run.answer host depth) (Act.Between jp.call) jp.call jp.method visits w
          s'.world ∧
        s'.world.courseOf jp.call = w.courseOf jp.call ++ more ∧
        more.filter Act.isReaching = visits.map (Visit.act jp.call) ∧
        (∀ visit ∈ visits, jp.target = some visit.object) ∧
        visits.length ≤ jp.chain.attempts ∧
        (jp.target.isSome = true → (∀ visit ∈ visits, IsFailure visit.own) →
          visits.length = jp.chain.attempts ∧ IsFailure result) := by
  have hbelow := Run.answer_sound host depth
  refine ⟨fun limit position proceed s s' result => ends_intercept_retry_iff, ?_⟩
  intro jp w result s' hcall hchain h
  obtain ⟨_, visits, hvisits, hobjects, hbound, hfailed⟩ :=
    chain_tries hbelow hchain ⟨rfl, hcall⟩ (ends_get_bind_iff.mp h)
  obtain ⟨_, more, hmore, hreached, _⟩ :=
    hvisits.course hbelow (fun _ ha hbetween => hbetween ha) hcall
  refine ⟨visits, more, hvisits, hmore, hreached, hobjects, hbound, fun htarget hall => ?_⟩
  obtain ⟨hlength, hresults⟩ := hfailed htarget hall
  exact ⟨hlength, hresults result (List.mem_singleton_self result)⟩

section Refusing

/-- User code whose targets refuse everything. -/
def refusingHost : Host Unit Unit Unit :=
  { Host.idle with target := fun _ _ _ _ => return .error (.raise "refused") }

/-- A retrying interceptor around another, with a forwarding one in between. -/
def retryingChain : Chain Unit :=
  [.settled ⟨none, .retry 2⟩, .settled ⟨none, .logging true⟩, .settled ⟨none, .retry 3⟩]

def refusedMethod : MethodSignature :=
  { declaringType := ⟨2, "Service", [], false, false, false⟩, name := "run", returnType := .any }

/-- A call through that chain to the first object. -/
def refusedCall : JoinPoint Unit :=
  JoinPoint.opened refusedMethod [] (some 0) none retryingChain none

/-- One object, and one call that has begun. -/
def refusingWorld : World Unit Unit Unit :=
  { World.initial () with targets := #[⟨refusedMethod.declaringType, ()⟩], calls := 1 }

/-- The target refuses six times. -/
theorem retries_multiply_refused :
    ∃ result s' visits, refusedCall.call < refusingWorld.calls ∧
      (∀ entry ∈ refusedCall.chain, entry.RetriesOrForwards refusingHost refusedCall.method) ∧
      Ends (invoke refusingHost (Run.answer refusingHost 1)) ⟨refusedCall, refusingWorld⟩ result
        s' ∧
      Run.Visits refusingHost (Run.answer refusingHost 1) (Act.Between 0) 0 refusedMethod visits
        refusingWorld s'.world ∧
      visits.length = 6 ∧ IsFailure result := by
  have hchain : ∀ entry ∈ refusedCall.chain,
      entry.RetriesOrForwards refusingHost refusedCall.method := by
    refine List.forall_mem_cons.mpr ⟨⟨_, rfl, .inl ⟨2, rfl⟩⟩, ?_⟩
    refine List.forall_mem_cons.mpr ⟨⟨_, rfl, .inr trivial⟩, ?_⟩
    exact List.forall_mem_singleton.mpr ⟨_, rfl, .inl ⟨3, rfl⟩⟩
  have hends : (((invoke refusingHost (Run.answer refusingHost 1)).run refusedCall).run
      refusingWorld).isSome = true := by decide +kernel
  obtain ⟨⟨⟨result, jp'⟩, w'⟩, hrun⟩ := Option.isSome_iff_exists.mp hends
  obtain ⟨_, hcalls⟩ := retries_multiply refusingHost 1
  obtain ⟨visits, _, hvisits, _, _, hobjects, _, hfailed⟩ :=
    hcalls refusedCall refusingWorld result ⟨jp', w'⟩ (by decide) hchain hrun
  have hrefused : ∀ visit ∈ visits, IsFailure visit.own := by
    rintro ⟨object, arguments, phase, own⟩ hvisit
    obtain ⟨v, v', hlater, hran⟩ := hvisits.ran (Run.answer_sound refusingHost 1) hvisit
    obtain rfl : 0 = object := Option.some.inj (hobjects _ hvisit)
    have hfound := hlater.targets 0 _ rfl
    rw [Run.callTarget, Run.get_bind_run, hfound] at hran
    cases hran
    exact ⟨_, rfl, rfl⟩
  obtain ⟨hlength, hresult⟩ := hfailed rfl hrefused
  exact ⟨result, ⟨jp', w'⟩, visits, by decide, hchain, hrun, hvisits, hlength, hresult⟩

end Refusing

end AtCall

end Visiting

end Weaving
