import Weaving.Proofs.Moments
import Weaving.Proofs.PassingAdvice

/-
The visits that a call makes: the times at which it reaches an object, each with what the object
came to.  A run is put together from visits and from what happens between them.
-/
namespace Weaving

variable {κ σ ν : Type}

/-- A time at which a call reached an object. -/
structure Visit where
  /-- The object. -/
  object : TargetId
  /-- The arguments at that time. -/
  arguments : List Value
  /-- The phase of the call, if it ran a chain to get there. -/
  phase : Option Phase
  /-- What the object came to. -/
  own : Result

/-- The act that tells of a visit. -/
def Visit.act (call : Nat) (visit : Visit) : Act :=
  .reached call visit.object visit.arguments visit.phase

theorem World.Later.record {w w' : World κ σ ν} (h : w.Later w') (e : Event ν) :
    w.Later (w'.record e) :=
  ⟨h.calls, h.targets, h.sources, h.configurations, h.dispatchers, h.proxies⟩

/-- Between visits a call reaches nothing. -/
theorem World.Leads.reaches_nothing {host : Host κ σ ν} {allowed : Act → Prop} {call : Nat}
    {w w' : World κ σ ν} (h : w.Leads host allowed w')
    (hallowed : ∀ a : Act, a.call = call → allowed a → a.isReaching = false) :
    ∃ more, w'.courseOf call = w.courseOf call ++ more ∧ more.filter Act.isReaching = [] ∧
      ∀ a ∈ more, allowed a := by
  obtain ⟨more, hmore, hall⟩ := h.course call
  refine ⟨more, hmore, List.filter_eq_nil_iff.mpr fun a ha => ?_, fun a ha => (hall a ha).2.1⟩
  obtain ⟨hcall, hpermitted, _⟩ := hall a ha
  rw [hallowed a hcall hpermitted]
  exact Bool.false_ne_true

namespace Run

variable {host : Host κ σ ν} {below : Handler κ σ ν} {allowed : Act → Prop} {call : Nat}
  {m : MethodSignature} {u v w w' : World κ σ ν} {visits later : List Visit}

/-- Between two worlds a call made certain visits, one after the other, and apart from that nothing
happened but what is allowed. -/
inductive Visits (host : Host κ σ ν) (below : Handler κ σ ν) (allowed : Act → Prop) (call : Nat)
    (m : MethodSignature) : List Visit → World κ σ ν → World κ σ ν → Prop where
  | none {w w' : World κ σ ν} (between : w.Leads host allowed w') :
      Visits host below allowed call m [] w w'
  | next {visit : Visit} {later : List Visit} {u v v' w' : World κ σ ν}
      (before : u.Leads host allowed v)
      (ran : (callTarget host below visit.object m visit.arguments).run
        (v.record (.act (visit.act call))) = some (visit.own, v'))
      (rest : Visits host below allowed call m later v' w') :
      Visits host below allowed call m (visit :: later) u w'

namespace Visits

theorem before (hleads : u.Leads host allowed v)
    (h : Visits host below allowed call m visits v w) :
    Visits host below allowed call m visits u w := by
  cases h with
  | none between => exact .none (hleads.trans between)
  | next before ran rest => exact .next (hleads.trans before) ran rest

theorem append (h : Visits host below allowed call m visits u v)
    (hlater : Visits host below allowed call m later v w) :
    Visits host below allowed call m (visits ++ later) u w := by
  induction h with
  | none between => exact hlater.before between
  | next before ran _ ih => exact .next before ran (ih hlater)

theorem after (h : Visits host below allowed call m visits u v)
    (hleads : v.Leads host allowed w) : Visits host below allowed call m visits u w := by
  rw [← List.append_nil visits]
  exact h.append (.none hleads)

/-- Of the acts of the call, those of reaching objects tell of its visits, and all others are
allowed. -/
theorem course (hbelow : below.Sound host)
    (hallowed : ∀ a : Act, a.call = call → allowed a → a.isReaching = false)
    (hcall : call < w.calls) (h : Visits host below allowed call m visits w w') :
    w.calls ≤ w'.calls ∧ ∃ more, w'.courseOf call = w.courseOf call ++ more ∧
      more.filter Act.isReaching = visits.map (Visit.act call) ∧
      ∀ a ∈ more, allowed a ∨ a.isReaching = true := by
  induction h with
  | none between =>
      obtain ⟨more, hmore, hnothing, hall⟩ := between.reaches_nothing hallowed
      exact ⟨between.later.calls, more, hmore, hnothing, fun a ha => .inl (hall a ha)⟩
  | @next visit later u v v' w' before ran rest ih =>
      obtain ⟨first, hfirst, hnothing, hall⟩ := before.reaches_nothing hallowed
      have hbegun : call < v.calls := Nat.lt_of_lt_of_le hcall before.later.calls
      have hsound : Sound host (call < ·.call) (call + 1)
          (callTarget host below visit.object m visit.arguments) :=
        callTarget_sound hbelow (fun _ ha => ha) visit.object m visit.arguments
      have hduring := (hsound (v.record (.act (visit.act call))) hbegun).leads ran
      have hvisited : v'.courseOf call = v.courseOf call ++ [visit.act call] := by
        rw [hduring.course_eq fun a ha => Nat.ne_of_gt ha]
        exact World.courseOf_record_act v rfl
      obtain ⟨hcalls, more, hmore, hvisits, hothers⟩ :=
        ih (Nat.lt_of_lt_of_le hbegun hduring.later.calls)
      refine ⟨?_, first ++ visit.act call :: more, ?_, ?_, ?_⟩
      · exact Nat.le_trans before.later.calls (Nat.le_trans hduring.later.calls hcalls)
      · rw [hmore, hvisited, hfirst]
        simp only [List.append_assoc, List.singleton_append]
      · rw [List.filter_append, hnothing, List.filter_cons_of_pos rfl, hvisits]
        rfl
      · intro a ha
        rcases List.mem_append.mp ha with hbefore | hlater
        · exact .inl (hall a hbefore)
        · rcases List.mem_cons.mp hlater with rfl | hlater
          · exact .inr rfl
          · exact hothers a hlater

/-- What a visit came to, its object came to in a world on the way. -/
theorem ran (hbelow : below.Sound host)
    (h : Visits host below allowed call m visits w w') {visit : Visit} (hvisit : visit ∈ visits) :
    ∃ v v', w.Later v ∧
      (callTarget host below visit.object m visit.arguments).run v = some (visit.own, v') := by
  induction h with
  | none between => cases hvisit
  | @next first later u v v' w' before ran rest ih =>
      have hrecorded : u.Later (v.record (.act (first.act call))) := before.later.record _
      rcases List.mem_cons.mp hvisit with rfl | hlater
      · exact ⟨_, _, hrecorded, ran⟩
      · obtain ⟨x, x', hx, hran⟩ := ih hlater
        have hsound : Sound host (fun _ => True) 0
            (callTarget host below first.object m first.arguments) :=
          callTarget_sound hbelow (fun _ _ => trivial) first.object m first.arguments
        exact ⟨x, x', (hrecorded.trans (hsound.later ran)).trans hx, hran⟩

/-- Calling an object that the call has reached is a visit. -/
theorem once (hbelow : below.Sound host) (hcall : call < w.calls) {t : TargetId}
    {arguments : List Value} {phase : Option Phase} {own : Result}
    (h : (callTarget host below t m arguments).run
      (w.record (.act (.reached call t arguments phase))) = some (own, w')) :
    w.Leads host (fun _ => True) w' ∧
      Visits host below allowed call m [⟨t, arguments, phase, own⟩] w w' := by
  have hreached :
      w.Leads host (fun _ => True) (w.record (.act (.reached call t arguments phase))) :=
    World.leads_record_act trivial hcall
  have hsound : Sound host (fun _ => True) 0 (callTarget host below t m arguments) :=
    callTarget_sound hbelow (fun _ _ => trivial) t m arguments
  exact ⟨hreached.trans ((hsound _ (Nat.zero_le _)).leads h), .next (.refl w) h (.none (.refl w'))⟩

end Visits

end Run

/-- The end of a chain visits the target, if there is one. -/
theorem AtCall.TargetAnswers.visits {host : Host κ σ ν} {below : Handler κ σ ν}
    {allowed : Act → Prop} {call : Nat} {s s' : Moment κ σ ν} {own : Result}
    (h : TargetAnswers host below s own s') (hbelow : below.Sound host) (hs : s.During call) :
    s.Leads host (fun _ => True) s' ∧
      Run.Visits host below allowed s.joinPoint.call s.joinPoint.method
        (s.joinPoint.target.map fun t =>
          ⟨t, s.joinPoint.arguments, some .targetInvoked, own⟩).toList s.world s'.world ∧
      (s.joinPoint.target = none → own = .error (.noTarget s.joinPoint.method.text)) := by
  cases h with
  | missing none =>
      rw [none]
      exact ⟨⟨⟨rfl, rfl, rfl, rfl, rfl, rfl⟩, .refl _⟩, .none (.refl _), fun _ => rfl⟩
  | reached target ran =>
      rw [target]
      obtain ⟨hleads, hvisits⟩ := Run.Visits.once hbelow (hs.number ▸ hs.begun) ran
      exact ⟨⟨⟨rfl, rfl, rfl, rfl, rfl, rfl⟩, hleads⟩, hvisits, fun hnone => nomatch hnone⟩

end Weaving
