import Weaving.Adapter

/-
How a registry adapts advice.  The adapters that support a piece of advice are asked in the order of
registration, each for one interceptor, until one fails.  Whether any adapter supports the advice is
asked apart from that; the two answers agree as long as adapters make what they say they support,
which the built-in ones do.
-/
namespace Weaving

variable {κ : Type} {a : Advice κ}

namespace Adapter

/-- An adapter supports advice, and fails to make an interceptor of it all the same. -/
def FailsOn (adapter : Adapter κ) (a : Advice κ) (e : AopError) : Prop :=
  adapter.supports a = true ∧ adapter.adapt a = .error e

theorem not_failsOn_of_refused {adapter : Adapter κ} (h : adapter.supports a = false)
    (e : AopError) : ¬ adapter.FailsOn a e := by
  rintro ⟨hsupports, -⟩
  cases h.symm.trans hsupports

theorem not_failsOn_of_made {adapter : Adapter κ} {i : Interceptor κ}
    (h : adapter.adapt a = .ok i) (e : AopError) : ¬ adapter.FailsOn a e := by
  rintro ⟨-, hfails⟩
  cases h.symm.trans hfails

/-- An adapter with an action of its own for some advice makes an interceptor of it. -/
theorem adapt_of_action {adapter : Adapter κ} {action : Action κ}
    (hbuiltIn : adapter ∈ builtIn) (h : adapter.builtInAction? a.kind = some action) :
    adapter.adapt a = .ok ⟨none, action⟩ := by
  cases adapter with
  | custom _ _ _ => simp [builtIn] at hbuiltIn
  | _ => simp [adapt, h]

/-- A built-in adapter makes an interceptor of whatever it supports. -/
theorem builtIn_keeps {adapter : Adapter κ} (hbuiltIn : adapter ∈ builtIn) (a : Advice κ)
    (e : AopError) : ¬ adapter.FailsOn a e := by
  cases haction : adapter.builtInAction? a.kind with
  | some action => exact not_failsOn_of_made (adapt_of_action hbuiltIn haction) e
  | none =>
      refine not_failsOn_of_refused ?_ e
      cases adapter with
      | custom _ _ _ => simp [builtIn] at hbuiltIn
      | _ => simp [supports, haction]

end Adapter

namespace AdapterRegistry

/-- What becomes of advice under a list of adapters. -/
inductive Adapts (a : Advice κ) :
    List (Adapter κ) → Except AopError (List (Interceptor κ)) → Prop where
  /-- Each adapter that supports the advice makes one interceptor. -/
  | made {adapters : List (Adapter κ)} {interceptors : List (Interceptor κ)}
      (each : (adapters.filter (·.supports a)).map (·.adapt a) = interceptors.map .ok) :
      Adapts a adapters (.ok interceptors)
  /-- The first that fails decides. -/
  | failed (before : List (Adapter κ)) {after : List (Adapter κ)} {adapter : Adapter κ} {e : AopError}
      (earlier : ∀ b ∈ before, ∀ e, ¬ b.FailsOn a e) (fails : adapter.FailsOn a e) :
      Adapts a (before ++ adapter :: after) (.error e)

namespace Adapts

variable {adapter : Adapter κ} {rest : List (Adapter κ)}
  {outcome : Except AopError (List (Interceptor κ))}

theorem skip (h : Adapts a rest outcome) (hrefuses : adapter.supports a = false) :
    Adapts a (adapter :: rest) outcome := by
  cases h with
  | made each =>
      refine .made ?_
      rw [List.filter_cons_of_neg (by simp [hrefuses]), each]
  | failed before earlier fails =>
      have hquiet := Adapter.not_failsOn_of_refused hrefuses
      exact .failed (adapter :: before) (List.forall_mem_cons.mpr ⟨hquiet, earlier⟩) fails

theorem add {i : Interceptor κ} (h : Adapts a rest outcome) (hsupports : adapter.supports a = true)
    (hmade : adapter.adapt a = .ok i) :
    Adapts a (adapter :: rest) (outcome.map (i :: ·)) := by
  cases h with
  | made each =>
      refine .made ?_
      rw [List.filter_cons_of_pos (by simpa using hsupports), List.map_cons, List.map_cons, hmade,
        each]
  | failed before earlier fails =>
      have hquiet := Adapter.not_failsOn_of_made hmade
      exact .failed (adapter :: before) (List.forall_mem_cons.mpr ⟨hquiet, earlier⟩) fails

theorem each {adapters : List (Adapter κ)} {made : List (Interceptor κ)}
    (h : Adapts a adapters (.ok made)) :
    (adapters.filter (·.supports a)).map (·.adapt a) = made.map .ok := by
  cases h with
  | made each => exact each

theorem made_of_kept {adapters : List (Adapter κ)} (h : Adapts a adapters outcome)
    (hkept : ∀ adapter ∈ adapters, ∀ e, ¬ adapter.FailsOn a e) :
    ∃ made, outcome = .ok made ∧
      (adapters.filter (·.supports a)).map (·.adapt a) = made.map .ok := by
  cases h with
  | made each => exact ⟨_, rfl, each⟩
  | failed before earlier fails => exact absurd fails (hkept _ (by simp) _)

theorem failed_of_failing {adapters : List (Adapter κ)} {e : AopError}
    (h : Adapts a adapters outcome) (hmem : adapter ∈ adapters) (hfails : adapter.FailsOn a e) :
    ∃ before first after e, adapters = before ++ first :: after ∧
      (∀ b ∈ before, ∀ e, ¬ b.FailsOn a e) ∧ first.FailsOn a e ∧ outcome = .error e := by
  cases h with
  | failed before earlier fails => exact ⟨before, _, _, _, rfl, earlier, fails, rfl⟩
  | @made _ interceptors each =>
      -- among what was made there would be an error
      obtain ⟨hsupports, herror⟩ := hfails
      have hamong : Except.error e ∈ interceptors.map Except.ok := by
        rw [← each, ← herror]
        exact List.mem_map_of_mem (List.mem_filter.mpr ⟨hmem, hsupports⟩)
      obtain ⟨_, _, himpossible⟩ := List.mem_map.mp hamong
      cases himpossible

end Adapts

theorem adaptAll_adapts (a : Advice κ) (adapters : List (Adapter κ)) :
    Adapts a adapters (adaptAll a adapters) := by
  induction adapters with
  | nil => exact .made rfl
  | cons adapter rest ih =>
      cases hsupports : adapter.supports a with
      | false =>
          rw [adaptAll, hsupports]
          exact ih.skip hsupports
      | true =>
          cases hmade : adapter.adapt a with
          | error e =>
              rw [adaptAll, hsupports, if_pos rfl, hmade]
              exact .failed [] nofun ⟨hsupports, hmade⟩
          | ok i =>
              have hadded := ih.add hsupports hmade
              rw [adaptAll, hsupports, if_pos rfl, hmade]
              cases hrest : adaptAll a rest with
              | error e => rwa [hrest] at hadded
              | ok later => rwa [hrest] at hadded

theorem length_of_each {adapters : List (Adapter κ)} {made : List (Interceptor κ)}
    (each : adapters.map (·.adapt a) = made.map .ok) : made.length = adapters.length := by
  simpa using (congrArg List.length each).symm

/-- The error about advice that no adapter supports. -/
def unknown (a : Advice κ) : AopError := .unknownAdvice (a.name ++ " (" ++ a.type.name ++ ")")

theorem supports_eq_false_iff {r : AdapterRegistry κ} : r.supports a = false ↔
    a.interceptor? = none ∧ r.adapters.filter (·.supports a) = [] := by
  simp [supports, List.filter_eq_nil_iff]

theorem interceptors_of_error {r : AdapterRegistry κ} {e : AopError}
    (h : adaptAll a r.adapters = .error e) : r.interceptors a = .error e := by
  rw [interceptors, h]

theorem interceptors_of_ok {r : AdapterRegistry κ} {made : List (Interceptor κ)}
    (h : adaptAll a r.adapters = .ok made) :
    r.interceptors a =
      if a.interceptor?.toList ++ made = [] then .error (unknown a)
      else .ok (a.interceptor?.toList ++ made) := by
  rw [interceptors, h]
  simp only [List.isEmpty_iff]
  rfl

/-- Without an adapter that fails, the adaptation comes to nothing just when nothing supports the
advice. -/
theorem nothing_made_iff {r : AdapterRegistry κ} {made : List (Interceptor κ)}
    (each : (r.adapters.filter (·.supports a)).map (·.adapt a) = made.map .ok) :
    a.interceptor?.toList ++ made = [] ↔ r.supports a = false := by
  have hmade : made = [] ↔ r.adapters.filter (·.supports a) = [] := by
    rw [← List.length_eq_zero_iff, length_of_each each, List.length_eq_zero_iff]
  rw [List.append_eq_nil_iff, hmade, supports_eq_false_iff, Option.toList_eq_nil_iff]

theorem interceptors_ok {r : AdapterRegistry κ} {l : List (Interceptor κ)}
    (h : r.interceptors a = .ok l) : l ≠ [] ∧ ∃ made, l = a.interceptor?.toList ++ made ∧
      (r.adapters.filter (·.supports a)).map (·.adapt a) = made.map .ok := by
  cases houtcome : adaptAll a r.adapters with
  | error e => cases (interceptors_of_error houtcome).symm.trans h
  | ok made =>
      rw [interceptors_of_ok houtcome] at h
      split at h
      · cases h
      · next hsome =>
          cases h
          have hadapts := adaptAll_adapts a r.adapters
          rw [houtcome] at hadapts
          exact ⟨hsome, made, rfl, hadapts.each⟩

theorem standard_interceptors (h : ∀ type payload, a.kind ≠ .custom type payload) :
    ∃ i, standard.interceptors a = .ok [i] := by
  obtain ⟨name, kind⟩ := a
  cases kind with
  | custom type payload => exact absurd rfl (h type payload)
  | _ => exact ⟨_, rfl⟩

/-- What a registry makes of advice is never empty: the interceptor of around advice, then one for each
supporting adapter in order.  If none of them fails, making interceptors fails just when the registry
does not support the advice, and tells that the advice is unknown; else it fails as the first of them
does.  The built-in adapters do not fail, and one of them, or the advice itself, makes the interceptor
of any advice that is not a form of the user's own. -/
theorem interceptors_agree_with_support (r : AdapterRegistry κ) (a : Advice κ) :
    (∀ l, r.interceptors a = .ok l → l ≠ [] ∧ ∃ made, l = a.interceptor?.toList ++ made ∧
      (r.adapters.filter (·.supports a)).map (·.adapt a) = made.map .ok) ∧
    ((∀ adapter ∈ r.adapters, ∀ e, ¬ adapter.FailsOn a e) →
      ((∃ e, r.interceptors a = .error e) ↔ r.supports a = false) ∧
      ∀ e, r.interceptors a = .error e → e = unknown a) ∧
    (∀ adapter ∈ r.adapters, ∀ e, adapter.FailsOn a e →
      ∃ before first after e, r.adapters = before ++ first :: after ∧
        (∀ b ∈ before, ∀ e, ¬ b.FailsOn a e) ∧ first.FailsOn a e ∧
        r.interceptors a = .error e) ∧
    (∀ adapter ∈ Adapter.builtIn, ∀ e, ¬ adapter.FailsOn a e) ∧
    ((∀ type payload, a.kind ≠ .custom type payload) →
      ∃ i, standard.interceptors a = .ok [i]) := by
  have hadapts := adaptAll_adapts a r.adapters
  refine ⟨fun _ => interceptors_ok, fun hkept => ?_, fun adapter hmem e hfails => ?_,
    fun _ hbuiltIn => Adapter.builtIn_keeps hbuiltIn a, standard_interceptors⟩
  · obtain ⟨made, hmade, each⟩ := hadapts.made_of_kept hkept
    rw [interceptors_of_ok hmade, ← nothing_made_iff each]
    by_cases hnone : a.interceptor?.toList ++ made = []
    · rw [if_pos hnone]
      exact ⟨⟨fun _ => hnone, fun _ => ⟨_, rfl⟩⟩, fun e he => (Except.error.inj he).symm⟩
    · rw [if_neg hnone]
      exact ⟨⟨nofun, fun h => absurd h hnone⟩, nofun⟩
  · obtain ⟨before, first, after, e, hsplit, hearlier, hfirst, houtcome⟩ :=
      hadapts.failed_of_failing hmem hfails
    exact ⟨before, first, after, e, hsplit, hearlier, hfirst, interceptors_of_error houtcome⟩

section Custom

/-- An adapter that makes an interceptor of any advice. -/
def audits : Adapter Nat := .custom "Audits" (fun _ => true) fun _ => .ok ⟨none, .before 0⟩

/-- An adapter that supports any advice and fails on it. -/
def strict (reason : String) : Adapter Nat :=
  .custom "Strict" (fun _ => true) fun _ => .error (.configuration reason)

def mark : Advice Nat := ⟨"mark", .custom .before (.bool true)⟩

/-- An adapter that stands in a registry twice makes two interceptors; of two that fail the first is
heard; and the built-in adapters do not know the advice. -/
theorem interceptors_agree_with_support_custom :
    (∃ one two, AdapterRegistry.interceptors ⟨[audits, .before, audits]⟩ mark = .ok [one, two]) ∧
    AdapterRegistry.interceptors ⟨[audits, strict "locked", strict "closed"]⟩ mark =
      .error (.configuration "locked") ∧
    standard.interceptors mark = .error (.unknownAdvice "mark (Before)") := by
  have haudits : ∀ e, ¬ audits.FailsOn mark e := Adapter.not_failsOn_of_made rfl
  have hbefore : ∀ e, ¬ Adapter.before.FailsOn mark e := Adapter.not_failsOn_of_refused rfl
  have hstrict (reason : String) : (strict reason).FailsOn mark (.configuration reason) := ⟨rfl, rfl⟩
  refine ⟨?_, ?_, ?_⟩
  · obtain ⟨hok, hquiet, -⟩ := interceptors_agree_with_support ⟨[audits, .before, audits]⟩ mark
    obtain ⟨hfails, -⟩ := hquiet (by simp [haudits, hbefore])
    cases hmade : AdapterRegistry.interceptors ⟨[audits, .before, audits]⟩ mark with
    | error e => cases hfails.mp ⟨e, hmade⟩
    | ok l =>
        obtain ⟨-, _, rfl, each⟩ := hok l hmade
        have htwo : l.length = 2 := length_of_each each
        match l, htwo with
        | [one, two], _ => exact ⟨one, two, rfl⟩
  · obtain ⟨-, -, hfirst, -⟩ :=
      interceptors_agree_with_support ⟨[audits, strict "locked", strict "closed"]⟩ mark
    obtain ⟨before, first, after, e, hsplit, hearlier, hfails, hanswer⟩ :=
      hfirst (strict "closed") (by simp) _ (hstrict "closed")
    rw [hanswer]
    match before, hsplit with
    | [], hsplit =>
        obtain ⟨rfl, -⟩ := List.cons.inj hsplit
        exact absurd hfails (haudits e)
    | [_], hsplit =>
        obtain ⟨rfl, -⟩ := List.cons.inj (List.cons.inj hsplit).2
        exact congrArg Except.error (Except.error.inj hfails.2).symm
    | _ :: _ :: _, hsplit =>
        obtain ⟨rfl, -⟩ := List.cons.inj (List.cons.inj hsplit).2
        exact absurd (hstrict "locked") (hearlier _ (by simp) _)
  · obtain ⟨-, hquiet, -, hbuiltIn, -⟩ := interceptors_agree_with_support standard mark
    obtain ⟨hfails, hunknown⟩ := hquiet hbuiltIn
    obtain ⟨e, he⟩ := hfails.mpr rfl
    rw [he, hunknown e he]
    rfl

end Custom

end AdapterRegistry

end Weaving
