import Weaving.Proofs.Forwarding
import Weaving.Proofs.Visits

/-
Chains of introductions among advice that forwards.  A call goes through such a chain until it meets
an introduction that takes part in it and lists a contract with the method; its delegate serves the
call, and nothing further in does.  Where there is none, the target serves it.
-/
namespace Weaving

variable {κ σ ν : Type}

/-- An entry that hands the calls of a method to a delegate. -/
def ChainEntry.Covers (m : MethodSignature) (d : TargetId) (entry : ChainEntry κ) : Prop :=
  ∃ interfaces, entry.interceptor.action = .delegate d interfaces ∧
    AtCall.isIntroduced interfaces m = true

/-- An entry that introduces contracts, whether or not the method of a call is among theirs. -/
def ChainEntry.isIntroduction (entry : ChainEntry κ) : Bool :=
  match entry.interceptor.action with
  | .delegate _ _ => true
  | _ => false

theorem ChainEntry.Covers.isIntroduction {m : MethodSignature} {d : TargetId}
    {entry : ChainEntry κ} (h : entry.Covers m d) : entry.isIntroduction = true := by
  obtain ⟨interfaces, haction, _⟩ := h
  rw [ChainEntry.isIntroduction, haction]

/-- A chain of introductions among interceptors that forward the calls of a method. -/
def Chain.IntroducesOrForwards (host : Host κ σ ν) (m : MethodSignature) (chain : Chain κ) : Prop :=
  ∀ entry ∈ chain, entry.isIntroduction = true ∨ entry.interceptor.action.Forwards host m

/-- A chain of introductions among interceptors that pass the calls of a method on as they are. -/
def Chain.IntroducesOrPasses (host : Host κ σ ν) (m : MethodSignature) (chain : Chain κ) : Prop :=
  ∀ entry ∈ chain, entry.isIntroduction = true ∨ entry.interceptor.action.PassesOn host m

theorem Chain.IntroducesOrPasses.forwards {host : Host κ σ ν} {m : MethodSignature}
    {chain : Chain κ} (h : chain.IntroducesOrPasses host m) : chain.IntroducesOrForwards host m :=
  fun entry hentry => (h entry hentry).imp_right Action.PassesOn.forwards

/-- The other interceptors of a chain. -/
def Chain.withoutIntroductions (chain : Chain κ) : Chain κ :=
  List.filter (fun entry => !entry.isIntroduction) chain

theorem Chain.withoutIntroductions_introduction {entry : ChainEntry κ} {rest : Chain κ}
    (h : entry.isIntroduction = true) :
    Chain.withoutIntroductions (entry :: rest) = rest.withoutIntroductions :=
  List.filter_cons_of_neg (by simp [h])

theorem Chain.withoutIntroductions_other {entry : ChainEntry κ} {rest : Chain κ}
    (h : entry.isIntroduction = false) :
    Chain.withoutIntroductions (entry :: rest) = entry :: rest.withoutIntroductions :=
  List.filter_cons_of_pos (by simp [h])

theorem Chain.isIntroduction_of_mem_withoutIntroductions {chain : Chain κ} {entry : ChainEntry κ}
    (h : entry ∈ chain.withoutIntroductions) : entry.isIntroduction = false := by
  simpa using (List.mem_filter.mp h).2

theorem Chain.IntroducesOrPasses.withoutIntroductions {host : Host κ σ ν} {m : MethodSignature}
    {chain : Chain κ} (h : chain.IntroducesOrPasses host m) :
    chain.withoutIntroductions.IntroducesOrPasses host m :=
  fun entry hentry => h entry (List.mem_filter.mp hentry).1

/-- Who serves a call in the end. -/
inductive Server where
  /-- The delegate of the entry at a position. -/
  | delegate (position : Nat) (object : TargetId)
  /-- The target, if there is one. -/
  | target

/-- What becomes of a delegate's own result: the proxy stands in for a delegate that returns itself.
-/
def standIn (proxy : Option ProxyId) (d : TargetId) : Result → Result
  | .error e => .error e
  | .ok value =>
    if value = some (.target d) then .ok (some ((proxy.map Value.proxy).getD (.target d)))
    else .ok value

namespace Server

/-- Whether a server stands at a position or further in. -/
def ComesFrom (k : Nat) : Server → Prop
  | .delegate position _ => k ≤ position
  | .target => True

/-- What may happen beside the visit of the server: nothing else is reached, and nothing after the
server's entry is entered. -/
def Allows (call : Nat) (server : Server) (a : Act) : Prop :=
  a.call = call → a.isReaching = false ∧
    ∀ position phase, a = .entered call position phase → server.ComesFrom position

/-- The only visit of a call: a delegate is visited without a phase. -/
def visits (target : Option TargetId) (arguments : List Value) (phase : Option Phase)
    (own : Result) : Server → List Visit
  | .delegate _ d => [⟨d, arguments, none, own⟩]
  | .target => (target.map fun t => ⟨t, arguments, phase, own⟩).toList

/-- What is made of the server's own result. -/
def gives (proxy : Option ProxyId) (own : Result) : Server → Result
  | .delegate _ d => standIn proxy d own
  | .target => own

variable {call : Nat} {a : Act} {server : Server}

theorem ComesFrom.mono {k l : Nat} (h : server.ComesFrom l) (hle : k ≤ l) : server.ComesFrom k := by
  cases server with
  | delegate position d => exact Nat.le_trans hle h
  | target => exact trivial

theorem allows_of_later (h : call < a.call) : server.Allows call a :=
  fun hcall => absurd hcall (Nat.ne_of_gt h)

theorem Allows.isReaching_eq_false (h : server.Allows call a) (hcall : a.call = call) :
    a.isReaching = false :=
  (h hcall).1

theorem Allows.comesFrom {position : Nat} {phase : Phase}
    (h : server.Allows call (.entered call position phase)) : server.ComesFrom position :=
  (h rfl).2 position phase rfl

theorem allows_returned (index : Nat) (ok : Bool) (phase : Phase) :
    server.Allows call (.returned call index ok phase) :=
  fun _ => ⟨rfl, nofun⟩

theorem allows_entered {index : Nat} {phase : Phase} (h : server.ComesFrom index) :
    server.Allows call (.entered call index phase) := by
  refine fun _ => ⟨rfl, fun position phase' hentered => ?_⟩
  cases hentered
  exact h

end Server

/-- Whom a call meets on its way through a chain, the first entry of which stands at a position, and
with which arguments: the first introduction that takes part in the call and covers its method, or
else the target. -/
inductive Meets (host : Host κ σ ν) (m : MethodSignature) (type : TypeInfo) :
    Chain κ → Nat → List Value → Server → List Value → Prop where
  | target {index : Nat} {arguments : List Value} :
      Meets host m type [] index arguments .target arguments
  /-- An entry that takes no part in the call. -/
  | skipped {entry : ChainEntry κ} {rest : Chain κ} {index : Nat} {arguments last : List Value}
      {server : Server} (rejects : entry.admits m type arguments = false)
      (later : Meets host m type rest (index + 1) arguments server last) :
      Meets host m type (entry :: rest) index arguments server last
  /-- An introduction of other contracts. -/
  | passed {entry : ChainEntry κ} {rest : Chain κ} {index : Nat} {arguments last : List Value}
      {server : Server} (admits : entry.admits m type arguments = true)
      (introduces : entry.isIntroduction = true) (other : ∀ d, ¬ entry.Covers m d)
      (later : Meets host m type rest (index + 1) arguments server last) :
      Meets host m type (entry :: rest) index arguments server last
  /-- An interceptor that forwards the call, maybe with other arguments. -/
  | forwarded {entry : ChainEntry κ} {rest : Chain κ} {index : Nat}
      {arguments arguments' last : List Value} {server : Server}
      (admits : entry.admits m type arguments = true) (other : entry.isIntroduction = false)
      (keeps : entry.interceptor.action.PassesOn host m → arguments' = arguments)
      (later : Meets host m type rest (index + 1) arguments' server last) :
      Meets host m type (entry :: rest) index arguments server last
  /-- An introduction of a contract that the method belongs to. -/
  | served {entry : ChainEntry κ} {rest : Chain κ} {index : Nat} {arguments : List Value}
      {d : TargetId} (admits : entry.admits m type arguments = true) (covers : entry.Covers m d) :
      Meets host m type (entry :: rest) index arguments (.delegate index d) arguments

namespace Meets

variable {host : Host κ σ ν} {m : MethodSignature} {type : TypeInfo} {chain : Chain κ}
  {index position : Nat} {arguments last : List Value} {server : Server} {d : TargetId}

theorem le (h : Meets host m type chain index arguments server last) : server.ComesFrom index := by
  induction h with
  | target => exact trivial
  | skipped _ _ ih | passed _ _ _ _ ih | forwarded _ _ _ _ ih => exact ih.mono (Nat.le_succ _)
  | served _ _ => exact Nat.le_refl _

/-- Where nothing replaces the arguments, the server gets those of the call. -/
theorem keeps (h : Meets host m type chain index arguments server last)
    (hchain : chain.IntroducesOrPasses host m) : last = arguments := by
  induction h with
  | target | served _ _ => rfl
  | skipped _ _ ih | passed _ _ _ _ ih => exact ih (List.forall_mem_cons.mp hchain).2
  | forwarded admits other keeps later ih =>
      obtain ⟨hentry, hrest⟩ := List.forall_mem_cons.mp hchain
      exact (ih hrest).trans (keeps (hentry.resolve_left (other ▸ Bool.false_ne_true)))

/-- Without introductions it is the target that serves. -/
theorem target_of_none (h : Meets host m type chain index arguments server last)
    (hnone : ∀ entry ∈ chain, entry.isIntroduction = false) : server = .target := by
  induction h with
  | target => rfl
  | skipped _ _ ih | passed _ _ _ _ ih | forwarded _ _ _ _ ih =>
      exact ih (List.forall_mem_cons.mp hnone).2
  | served admits covers =>
      exact absurd (hnone _ List.mem_cons_self) (covers.isIntroduction ▸ nofun)

/-- A call comes by every entry before the one that serves it, with its own arguments if they were
never replaced. -/
theorem drop (h : Meets host m type chain index arguments server last) (k : Nat)
    (hfrom : server.ComesFrom (index + k)) :
    ∃ arguments', Meets host m type (chain.drop k) (index + k) arguments' server last ∧
      (chain.IntroducesOrPasses host m → arguments' = arguments) := by
  induction k generalizing chain index arguments with
  | zero => exact ⟨_, h, fun _ => rfl⟩
  | succ k ih =>
      have hnext : index + (k + 1) = index + 1 + k := Nat.add_right_comm index k 1
      rw [hnext] at hfrom ⊢
      cases h with
      | target => exact ⟨_, .target, fun _ => rfl⟩
      | skipped rejects later =>
          obtain ⟨arguments', hlater, hsame⟩ := ih later hfrom
          exact ⟨arguments', hlater, fun hchain => hsame (List.forall_mem_cons.mp hchain).2⟩
      | passed admits introduces other later =>
          obtain ⟨arguments', hlater, hsame⟩ := ih later hfrom
          exact ⟨arguments', hlater, fun hchain => hsame (List.forall_mem_cons.mp hchain).2⟩
      | forwarded admits other keeps later =>
          obtain ⟨arguments', hlater, hsame⟩ := ih later hfrom
          refine ⟨arguments', hlater, fun hchain => ?_⟩
          obtain ⟨hentry, hrest⟩ := List.forall_mem_cons.mp hchain
          rw [hsame hrest]
          exact keeps (hentry.resolve_left (other ▸ Bool.false_ne_true))
      | served admits covers =>
          have hle : index + 1 + k ≤ index := hfrom
          omega

/-- The introduction that serves a call covers the method and takes part in the call as it is then.
-/
theorem served_covers (h : Meets host m type chain index arguments (.delegate position d) last) :
    ∃ entry, chain[position - index]? = some entry ∧ entry.Covers m d ∧
      entry.admits m type last = true := by
  have hposition : index + (position - index) = position := Nat.add_sub_cancel' h.le
  obtain ⟨_, hthere, _⟩ := h.drop (position - index) (Nat.le_of_eq hposition)
  rw [hposition] at hthere
  generalize hrest : chain.drop (position - index) = rest at hthere
  cases hthere with
  | skipped _ later | passed _ _ _ later | forwarded _ _ _ later =>
      exact absurd later.le (Nat.not_succ_le_self position)
  | served admits covers =>
      refine ⟨_, ?_, covers, admits⟩
      rw [← List.head?_drop, hrest]
      rfl

/-- Any introduction before the server that covers the method took no part when the call came by. -/
theorem earlier_rejects (h : Meets host m type chain index arguments server last) {k : Nat}
    {entry : ChainEntry κ} (hentry : chain[k]? = some entry) (hcovers : entry.Covers m d)
    (hearlier : server.ComesFrom (index + k + 1)) :
    ∃ arguments', entry.admits m type arguments' = false ∧
      (chain.IntroducesOrPasses host m → arguments' = arguments) := by
  obtain ⟨arguments', hthere, hsame⟩ := h.drop k (hearlier.mono (Nat.le_succ _))
  obtain ⟨hin, rfl⟩ := List.getElem?_eq_some_iff.mp hentry
  rw [List.drop_eq_getElem_cons hin] at hthere
  cases hthere with
  | skipped rejects later => exact ⟨arguments', rejects, hsame⟩
  | passed admits introduces other later => exact absurd hcovers (other d)
  | forwarded admits other keeps later => exact absurd (other ▸ hcovers.isIntroduction) nofun
  | served admits covers => exact absurd hearlier (Nat.not_succ_le_self _)

/-- Where no introduction serves a call, it goes the same way without any of them. -/
theorem without_introductions (h : Meets host m type chain index arguments .target last)
    (index' : Nat) :
    Meets host m type chain.withoutIntroductions index' arguments .target last := by
  generalize hserver : Server.target = server at h
  induction h generalizing index' with
  | target => exact .target
  | @skipped entry rest index arguments last server rejects later ih =>
      cases hintroduces : entry.isIntroduction with
      | true =>
          rw [Chain.withoutIntroductions_introduction hintroduces]
          exact ih index' hserver
      | false =>
          rw [Chain.withoutIntroductions_other hintroduces]
          exact .skipped rejects (ih (index' + 1) hserver)
  | passed admits introduces other later ih =>
      rw [Chain.withoutIntroductions_introduction introduces]
      exact ih index' hserver
  | forwarded admits other keeps later ih =>
      rw [Chain.withoutIntroductions_other other]
      exact .forwarded admits other keeps (ih (index' + 1) hserver)
  | served _ _ => cases hserver

end Meets

namespace AtCall

variable {host : Host κ σ ν} {below : Handler κ σ ν} {call : Nat} {chain : Chain κ}
  {level index : Nat} {s s₁ s' : Moment κ σ ν} {server : Server} {last : List Value}
  {own result : Result}

/-- At the end of a run a call was attended to by a server, who was given these arguments and came
to a result of its own; nothing was reached beside. -/
structure Attends (host : Host κ σ ν) (below : Handler κ σ ν) (server : Server) (last : List Value)
    (own : Result) (s s' : Moment κ σ ν) : Prop where
  leads : s.Leads host (fun _ => True) s'
  visits : Run.Visits host below (server.Allows s.joinPoint.call) s.joinPoint.call
    s.joinPoint.method (server.visits s.joinPoint.target last (some .targetInvoked) own) s.world
    s'.world
  nobody : server = .target → s.joinPoint.target = none →
    own = .error (.noTarget s.joinPoint.method.text)

namespace Attends

theorem before (hleads : s.Leads host (server.Allows s.joinPoint.call) s₁)
    (h : Attends host below server last own s₁ s') : Attends host below server last own s s' := by
  obtain ⟨hlater, hvisits, hnobody⟩ := h
  obtain ⟨hcall, _, htarget, hmethod, _, _⟩ := hleads.continues
  rw [hcall, htarget, hmethod] at hvisits
  rw [htarget, hmethod] at hnobody
  exact ⟨(hleads.mono fun _ _ => trivial).trans hlater, hvisits.before hleads.world, hnobody⟩

theorem after (h : Attends host below server last own s s₁)
    (hleads : s₁.Leads host (server.Allows s₁.joinPoint.call) s') :
    Attends host below server last own s s' := by
  obtain ⟨hearlier, hvisits, hnobody⟩ := h
  rw [hearlier.continues.call] at hleads
  exact ⟨hearlier.trans (hleads.mono fun _ _ => trivial), hvisits.after hleads.world, hnobody⟩

end Attends

theorem ends_reach_iff {t : TargetId} {phase : Option Phase} :
    Ends (reach host below t phase) s own s' ↔
      (Run.callTarget host below t s.joinPoint.method s.joinPoint.arguments).run
        (s.world.record (.act (.reached s.joinPoint.call t s.joinPoint.arguments phase))) =
          some (own, s'.world) ∧ s'.joinPoint = s.joinPoint := by
  rw [reach, ends_get_bind_iff, ends_act_bind_iff, ends_lift_iff]

/-- Asking a delegate is reaching it, and the proxy stands in for it. -/
theorem ends_delegateTo {d : TargetId} (h : Ends (delegateTo host below d) s result s') :
    ∃ own, Ends (reach host below d none) s own s' ∧ result = standIn s'.joinPoint.proxy d own := by
  rw [delegateTo] at h
  obtain ⟨own, s₁, hreach, hrest⟩ := ends_bind_iff.mp h
  refine ⟨own, ?_⟩
  cases own with
  | error e =>
      obtain ⟨rfl, rfl⟩ := ends_pure_iff.mp hrest
      exact ⟨hreach, rfl⟩
  | ok value =>
      dsimp only at hrest
      rw [standIn]
      split at hrest
      · rename_i hself
        rw [ends_get_bind_iff] at hrest
        cases hproxy : s₁.joinPoint.proxy with
        | some p =>
            rw [hproxy] at hrest
            obtain ⟨rfl, rfl⟩ := ends_pure_iff.mp hrest
            rw [if_pos hself, hproxy]
            exact ⟨hreach, rfl⟩
        | none =>
            rw [hproxy] at hrest
            obtain ⟨rfl, rfl⟩ := ends_pure_iff.mp hrest
            rw [if_pos hself, hproxy]
            exact ⟨hreach, congrArg _ hself⟩
      · rename_i hother
        obtain ⟨rfl, rfl⟩ := ends_pure_iff.mp hrest
        rw [if_neg hother]
        exact ⟨hreach, rfl⟩

/-- A delegate that is asked serves the call. -/
theorem delegateTo_attends (hbelow : below.Sound host) (hs : s.During call) {d : TargetId}
    (h : Ends (delegateTo host below d) s result s') (position : Nat) :
    ∃ own, Attends host below (.delegate position d) s.joinPoint.arguments own s s' ∧
      result = standIn s.joinPoint.proxy d own := by
  obtain ⟨own, hreach, rfl⟩ := ends_delegateTo h
  obtain ⟨hran, hsame⟩ := ends_reach_iff.mp hreach
  obtain ⟨hleads, hvisits⟩ := Run.Visits.once hbelow (hs.number ▸ hs.begun) hran
  have hcontinues : s.joinPoint.Continues s'.joinPoint := hsame ▸ .refl s.joinPoint
  refine ⟨own, ⟨⟨hcontinues, hleads⟩, hvisits, fun hserver => nomatch hserver⟩, ?_⟩
  rw [hsame]

/-- An introduction that covers the method asks its delegate. -/
theorem ends_intercept_covers {entry : ChainEntry κ} {position : Nat}
    {proceed : AtCall κ σ ν Result} {d : TargetId} (hcovers : entry.Covers s.joinPoint.method d) :
    Ends (intercept host below entry.interceptor.action position proceed) s result s' ↔
      Ends (delegateTo host below d) s result s' := by
  obtain ⟨interfaces, haction, hintroduced⟩ := hcovers
  rw [haction, intercept, ends_get_bind_iff, if_pos hintroduced]

/-- An introduction of other contracts lets the call proceed. -/
theorem ends_intercept_other {entry : ChainEntry κ} {position : Nat}
    {proceed : AtCall κ σ ν Result} (hintroduces : entry.isIntroduction = true)
    (hother : ∀ d, ¬ entry.Covers s.joinPoint.method d) :
    Ends (intercept host below entry.interceptor.action position proceed) s result s' ↔
      Ends proceed s result s' := by
  rw [ChainEntry.isIntroduction] at hintroduces
  split at hintroduces
  · rename_i d interfaces haction
    have hrest : ¬ isIntroduced interfaces s.joinPoint.method = true :=
      fun hintroduced => hother d ⟨interfaces, haction, hintroduced⟩
    rw [haction, intercept, ends_get_bind_iff, if_neg hrest]
  · cases hintroduces

/-- A call on its way through a chain is served by the one that it meets, and comes to what is made
of that one's own result, translated. -/
inductive Serves (host : Host κ σ ν) (below : Handler κ σ ν) (chain : Chain κ) (index : Nat)
    (s : Moment κ σ ν) (result : Result) (s' : Moment κ σ ν) : Prop where
  | intro {server : Server} {last : List Value} {own : Result}
      (meets : Meets host s.joinPoint.method s.joinPoint.targetType chain index
        s.joinPoint.arguments server last)
      (attends : Attends host below server last own s s')
      (gives : result = translateUndeclared s.joinPoint.method
        (server.gives s.joinPoint.proxy own))

/-- Entering an interceptor and leaving its level are no visits. -/
theorem Serves.entered {entry : ChainEntry κ} {rest : Chain κ} {r : Result} (hs : s.During call)
    (h : Serves host below (entry :: rest) index (s.entering index) result s₁) :
    Serves host below (entry :: rest) index s result (s₁.leaving level r) := by
  obtain ⟨hmeets, hattends, hgives⟩ := h
  have hattends := hattends.before
    (Moment.entering_leads (Server.allows_entered hmeets.le) hs)
  refine ⟨hmeets, hattends.after ?_, hgives⟩
  exact Moment.leaving_leads (Server.allows_returned _ _ _) (hattends.leads.during hs)

/-- What an entry that takes part makes of a call, if the rest of the chain has it served. -/
theorem entry_serves {entry : ChainEntry κ} {rest : Chain κ} {position : Nat}
    {proceed : AtCall κ σ ν Result} (hbelow : below.Sound host)
    (hproceed : Sound host (fun _ => True) call proceed)
    (hrest : ∀ {r s₁ s₂}, s₁.joinPoint.method = s.joinPoint.method → s₁.During call →
      Ends proceed s₁ r s₂ → Serves host below rest (index + 1) s₁ r s₂)
    (hentry : entry.isIntroduction = true ∨
      entry.interceptor.action.Forwards host s.joinPoint.method)
    (hadmits : entry.admits s.joinPoint.method s.joinPoint.targetType s.joinPoint.arguments = true)
    (hs : s.During call)
    (h : Ends (intercept host below entry.interceptor.action position proceed) s result s') :
    Serves host below (entry :: rest) index s (translateUndeclared s.joinPoint.method result)
      s' := by
  cases hintroduces : entry.isIntroduction with
  | true =>
      rcases Classical.em (∃ d, entry.Covers s.joinPoint.method d) with ⟨d, hcovers⟩ | hother
      · rw [ends_intercept_covers hcovers] at h
        obtain ⟨own, hattends, rfl⟩ := delegateTo_attends hbelow hs h index
        exact ⟨.served hadmits hcovers, hattends, rfl⟩
      · have hother : ∀ d, ¬ entry.Covers s.joinPoint.method d := not_exists.mp hother
        rw [ends_intercept_other hintroduces hother] at h
        obtain ⟨hmeets, hattends, rfl⟩ := hrest rfl hs h
        exact ⟨.passed hadmits hintroduces hother hmeets, hattends, translateUndeclared_idem _ _⟩
  | false =>
      have hforwards : entry.interceptor.action.Forwards host s.joinPoint.method :=
        hentry.resolve_left (hintroduces ▸ Bool.false_ne_true)
      obtain ⟨s₁, s₂, hbefore, hkept, hproceeds, hafter⟩ :=
        intercept_handsOn hbelow hproceed hforwards hs h
      have hcontinues := hbefore.continues
      obtain ⟨hmeets, hattends, rfl⟩ := hrest hcontinues.method (hbefore.during hs) hproceeds
      rw [hcontinues.method, hcontinues.targetType] at hmeets
      rw [hcontinues.method, hcontinues.proxy]
      refine ⟨.forwarded hadmits hintroduces hkept hmeets, (hattends.before ?_).after ?_,
        translateUndeclared_idem _ _⟩
      · exact hbefore.mono fun a ha => Server.allows_of_later (hs.number ▸ ha)
      · have hduring := hattends.leads.during (hbefore.during hs)
        exact hafter.mono fun a ha => Server.allows_of_later (hduring.number ▸ ha)

/-- A call through introductions and advice that forwards is served by the one that it meets. -/
theorem chain_serves (hbelow : below.Sound host)
    (hchain : chain.IntroducesOrForwards host s.joinPoint.method) (hs : s.During call)
    (h : Ends (translated level (proceedFrom host below chain index)) s result s') :
    Serves host below chain index s result s' := by
  induction chain generalizing level index s result s' with
  | nil =>
      obtain ⟨own, s₁, hanswers, rfl, rfl⟩ := ends_nil_iff.mp h
      obtain ⟨hleads, hvisits, hnobody⟩ := hanswers.visits hbelow hs
      have hattends : Attends host below .target s.joinPoint.arguments own s s₁ :=
        ⟨hleads, hvisits, fun _ => hnobody⟩
      refine ⟨.target, hattends.after ?_, rfl⟩
      exact Moment.leaving_leads (Server.allows_returned _ _ _) (hleads.during hs)
  | cons entry rest ih =>
      obtain ⟨hentry, hrest⟩ := List.forall_mem_cons.mp hchain
      cases hadmits : entry.admits s.joinPoint.method s.joinPoint.targetType
          s.joinPoint.arguments with
      | false =>
          rw [ends_skip_iff hadmits] at h
          have hlogging : s.Leads host (fun _ => True)
              (s.logging (skippingLine s.joinPoint.method index)) := Moment.logging_leads _
          obtain ⟨hmeets, hattends, hgives⟩ :=
            ih (s := s.logging _) hrest (hlogging.during hs) h
          exact ⟨.skipped hadmits hmeets, hattends.before (Moment.logging_leads _), hgives⟩
      | true =>
          obtain ⟨r, s₁, hintercept, rfl, rfl⟩ := (ends_cons_iff hadmits).mp h
          have hentering : s.Leads host (fun _ => True) (s.entering index) :=
            Moment.entering_leads trivial hs
          have hproceed : Sound host (fun _ => True) call
              (translated (index + 1) (proceedFrom host below rest (index + 1))) :=
            translated_sound (.anything call _) (proceedFrom_sound hbelow rest _ (.anything call _))
          refine Serves.entered hs (entry_serves hbelow hproceed ?_ hentry hadmits
            (hentering.during hs) hintercept)
          intro r' s₂ s₃ hmethod hduring hproceeds
          refine ih ?_ hduring hproceeds
          rw [hmethod]
          exact hrest

end AtCall

end Weaving
