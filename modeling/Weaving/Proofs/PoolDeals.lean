import Weaving.Proofs.ConductOfAnswers
import Weaving.Proofs.PoolAccounts
import Mathlib.Data.List.Perm.Subperm

/-
Pools in a run.  Taking a target from a pooled source and giving one back are deals with its pool, and
nothing else in a run touches the pool.  Calls give back what they took and nothing else, so code that
leaves giving back to the calls deals with every pool fairly, however deeply its calls are nested.
-/
namespace Weaving

variable {κ σ ν α : Type}

/-- A request that does not give a target of a source back by hand. -/
def Request.LeavesReturns (id : SourceId) : Request κ σ ν → Prop
  | .release other _ => other ≠ id
  | _ => True

/-- The factory of a source makes a new object whenever it succeeds, and leaves the source alone. -/
def Handler.MakesNew (host : Host κ σ ν) (below : Handler κ σ ν) (id : SourceId) (factory : κ) :
    Prop :=
  ∀ w outcome w', ((host.make factory).run below).run w = some (outcome, w') →
    w'.sources[id]? = w.sources[id]? ∧ w.targets.size ≤ w'.targets.size ∧
      ∀ target, outcome = .ok target → w.targets.size ≤ target ∧ target < w'.targets.size

/-- Fair deals that keep a number of objects for the one who asked for them.  What was lent before is
still lent, nothing is left half made, and all objects made exist. -/
structure Ledger.Gains (l : Ledger) (deals : List Deal) (taken : List TargetId) (existing : Nat) :
    Prop where
  fair : l.AllowsAll deals
  lent : (taken ++ l.lent).Subperm (l.after deals).lent
  making : (l.after deals).making = l.making
  made : ∀ target ∈ (l.after deals).made, target < existing

namespace Ledger.Gains

variable {l : Ledger} {deals later : List Deal} {taken more : List TargetId} {existing bound : Nat}

theorem nil (hmade : ∀ target ∈ l.made, target < existing) : l.Gains [] [] existing :=
  ⟨trivial, .refl _, rfl, hmade⟩

theorem append (h : l.Gains deals taken existing)
    (hlater : (l.after deals).Gains later more bound) :
    l.Gains (deals ++ later) (more ++ taken) bound where
  fair := allowsAll_append.mpr ⟨h.fair, hlater.fair⟩
  lent := by
    rw [after_append, List.append_assoc]
    exact ((List.subperm_append_left more).mpr h.lent).trans hlater.lent
  making := by
    rw [after_append, hlater.making, h.making]
  made := by
    rw [after_append]
    exact hlater.made

/-- What was taken need not be kept track of. -/
theorem forget (h : l.Gains deals taken existing) : l.Gains deals [] existing :=
  ⟨h.fair, (List.sublist_append_right taken l.lent).subperm.trans h.lent, h.making, h.made⟩

/-- What was taken can be given back. -/
theorem giveBack {target : TargetId} (h : l.Gains deals [target] existing) (hle : existing ≤ bound) :
    l.Gains (deals ++ [.returned target]) [] bound := by
  have hlent : target ∈ (l.after deals).lent := h.lent.subset List.mem_cons_self
  refine ⟨allowsAll_append.mpr ⟨h.fair, hlent, trivial⟩, ?_, ?_, ?_⟩
  · rw [after_append]
    have hback := h.lent.erase target
    rwa [List.singleton_append, List.erase_cons_head] at hback
  · rw [after_append]
    exact h.making
  · rw [after_append]
    exact fun t ht => Nat.lt_of_lt_of_le (h.made t ht) hle

end Ledger.Gains

namespace World

/-- From one world to another the pool of a source was dealt with fairly, whatever had been dealt
before, and some of what it lent has been kept. -/
def Trades (id : SourceId) (factory : κ) (taken : List TargetId) (w w' : World κ σ ν) : Prop :=
  ∀ type pool, w.sources[id]? = some (.pooled type pool factory) →
    ∃ deals pool', w'.sources[id]? = some (.pooled type pool' factory) ∧
      w.targets.size ≤ w'.targets.size ∧ pool.Deals deals pool' ∧
      ∀ l : Ledger, (∀ target ∈ l.made, target < w.targets.size) →
        l.Gains deals taken w'.targets.size

variable {id : SourceId} {factory : κ}

/-- Nothing was dealt where the source is the same as before. -/
theorem Trades.same {w w' : World κ σ ν}
    (hsource : ∀ s, w.sources[id]? = some s → w'.sources[id]? = some s)
    (htargets : w.targets.size ≤ w'.targets.size) : w.Trades id factory [] w' := by
  intro type pool hpool
  refine ⟨[], pool, hsource _ hpool, htargets, .nil pool, fun l hmade => .nil fun t ht => ?_⟩
  exact Nat.lt_of_lt_of_le (hmade t ht) htargets

theorem Trades.trans {u v w : World κ σ ν} {taken more : List TargetId}
    (huv : u.Trades id factory taken v) (hvw : v.Trades id factory more w) :
    u.Trades id factory (more ++ taken) w := by
  intro type pool hpool
  obtain ⟨deals, pool', hpool', hle, hdeals, hgains⟩ := huv type pool hpool
  obtain ⟨later, pool'', hpool'', hle', hlater, hgains'⟩ := hvw type pool' hpool'
  refine ⟨deals ++ later, pool'', hpool'', Nat.le_trans hle hle', hdeals.append hlater, ?_⟩
  intro l hmade
  have hfirst := hgains l hmade
  exact hfirst.append (hgains' _ hfirst.made)

theorem Trades.forget {w w' : World κ σ ν} {taken : List TargetId}
    (h : w.Trades id factory taken w') : w.Trades id factory [] w' := by
  intro type pool hpool
  obtain ⟨deals, pool', hpool', hle, hdeals, hgains⟩ := h type pool hpool
  exact ⟨deals, pool', hpool', hle, hdeals, fun l hmade => (hgains l hmade).forget⟩

theorem Trades.lasting (id : SourceId) (factory : κ) :
    Lasting (World.Trades id factory [] : World κ σ ν → World κ σ ν → Prop) where
  trans := Trades.trans
  aside hsources htargets _ := .same (fun _ hs => hsources ▸ hs) htargets

/-- The source whose pool is changed. -/
theorem getElem?_mapSource_self {w : World κ σ ν} {type : TypeInfo} {pool : Pool}
    (hpool : w.sources[id]? = some (.pooled type pool factory)) (change : Pool → Pool) :
    (w.mapSource id (Source.mapPool change)).sources[id]? =
      some (.pooled type (change pool) factory) := by
  change (w.sources.modify id _)[id]? = _
  rw [Array.getElem?_modify, if_pos rfl, hpool]
  rfl

theorem getElem?_mapSource_of_ne {w : World κ σ ν} {other : SourceId} (h : other ≠ id)
    (change : Source κ → Source κ) :
    (w.mapSource other change).sources[id]? = w.sources[id]? := by
  change (w.sources.modify other change)[id]? = _
  rw [Array.getElem?_modify, if_neg h]

/-- Giving back to a pool what was taken from it is fair. -/
theorem Trades.giveBack {u w : World κ σ ν} {target : TargetId}
    (h : u.Trades id factory [target] w) :
    u.Trades id factory [] (w.mapSource id (Source.mapPool (·.takeBack target))) := by
  intro type pool hpool
  obtain ⟨deals, pool', hpool', hle, hdeals, hgains⟩ := h type pool hpool
  refine ⟨deals ++ [.returned target], pool'.takeBack target, getElem?_mapSource_self hpool' _, hle,
    hdeals.append (Pool.Step.returned target).deals, fun l hmade => ?_⟩
  exact (hgains l hmade).giveBack (Nat.le_refl _)

end World

namespace Run

variable {host : Host κ σ ν} {below : Handler κ σ ν} {id : SourceId} {type : TypeInfo} {pool : Pool}
  {factory : κ} {w : World κ σ ν}

/-- Taking a target from a pool of which everything is lent. -/
theorem acquire_of_exhausted (hpool : w.sources[id]? = some (.pooled type pool factory))
    (h : pool.lend = .exhausted) :
    (acquire host below id).run w = some (.error (Source.exhausted pool.maxSize), w) := by
  rw [acquire, get_bind_run]
  simp only [hpool, h]
  rfl

/-- Taking an idle target. -/
theorem acquire_of_idle (hpool : w.sources[id]? = some (.pooled type pool factory))
    {target : TargetId} {after : Pool} (h : pool.lend = .idle target after) :
    (acquire host below id).run w =
      some (.ok (some target), w.mapSource id (Source.mapPool fun _ => after)) := by
  rw [acquire, get_bind_run]
  simp only [hpool, h]
  rfl

/-- Taking a target that has to be made. -/
theorem acquire_of_vacant (hpool : w.sources[id]? = some (.pooled type pool factory))
    {after : Pool} (h : pool.lend = .vacant after) :
    (acquire host below id).run w =
      (fillVacancy host below id factory).run
        (w.mapSource id (Source.mapPool fun _ => after)) := by
  rw [acquire, get_bind_run]
  simp only [hpool, h]
  rfl

theorem fillVacancy_eq_some {outcome : Except AopError (Option TargetId)} {w' : World κ σ ν}
    (h : (fillVacancy host below id factory).run w = some (outcome, w')) :
    (∃ target, ((host.make factory).run below).run w = some (.ok target, w') ∧
        outcome = .ok (some target)) ∨
      ∃ e v, ((host.make factory).run below).run w = some (.error e, v) ∧ outcome = .error e ∧
        w' = v.mapSource id (Source.mapPool Pool.giveUp) := by
  obtain ⟨made, v, hv, hrest⟩ := run_bind_eq_some.mp h
  rcases made with e | target
  · cases hrest
    exact .inr ⟨e, v, hv, rfl, rfl⟩
  · cases hrest
    exact .inl ⟨target, hv, rfl⟩

/-- Giving a target back to a pool. -/
theorem release_of_pooled (hpool : w.sources[id]? = some (.pooled type pool factory))
    (target : TargetId) :
    (release host below id target).run w =
      some (.ok (), w.mapSource id (Source.mapPool (·.takeBack target))) := by
  rw [release, get_bind_run]
  simp only [hpool]
  rfl

/-- What was taken from a source. -/
def obtained : Except AopError (Option TargetId) → List TargetId
  | .ok (some target) => [target]
  | _ => []

/-- Taking a target from a pool is fair. -/
theorem acquire_trades (hmake : below.MakesNew host id factory)
    {outcome : Except AopError (Option TargetId)} {w' : World κ σ ν}
    (h : (acquire host below id).run w = some (outcome, w')) :
    w.Trades id factory (obtained outcome) w' := by
  intro type pool hpool
  cases hlend : pool.lend with
  | exhausted =>
      rw [acquire_of_exhausted hpool hlend] at h
      cases h
      refine ⟨[.refused], pool, hpool, Nat.le_refl _, (Pool.Step.refused hlend).deals, ?_⟩
      exact fun l hmade => ⟨⟨trivial, trivial⟩, .refl _, rfl, hmade⟩
  | idle target after =>
      rw [acquire_of_idle hpool hlend] at h
      cases h
      refine ⟨[.lent target], after, World.getElem?_mapSource_self hpool _, Nat.le_refl _,
        (Pool.Step.lent hlend).deals, ?_⟩
      exact fun l hmade => ⟨⟨trivial, trivial⟩, .refl _, rfl, hmade⟩
  | vacant after =>
      rw [acquire_of_vacant hpool hlend] at h
      have hreserved := World.getElem?_mapSource_self hpool fun _ => after
      rcases fillVacancy_eq_some h with ⟨target, hmade, rfl⟩ | ⟨e, v, hfailed, rfl, rfl⟩
      · obtain ⟨hsame, hle, hnew⟩ := hmake _ _ _ hmade
        obtain ⟨hfresh, hexists⟩ := hnew target rfl
        refine ⟨[.reserved, .made target], after, hsame.trans hreserved, hle,
          .cons (.reserved hlend) (Pool.Step.made target).deals, fun l hknown => ?_⟩
        refine ⟨⟨trivial, ⟨Nat.succ_pos _, fun hmem => ?_⟩, trivial⟩, .refl _, rfl, fun t ht => ?_⟩
        · exact Nat.lt_irrefl _ (Nat.lt_of_le_of_lt hfresh (hknown target hmem))
        · rcases List.mem_cons.mp ht with rfl | ht
          · exact hexists
          · exact Nat.lt_of_lt_of_le (hknown t ht) hle
      · obtain ⟨hsame, hle, _⟩ := hmake _ _ _ hfailed
        refine ⟨[.reserved, .failed], after.giveUp,
          World.getElem?_mapSource_self (hsame.trans hreserved) Pool.giveUp, hle,
          .cons (.reserved hlend) Pool.Step.failed.deals, fun l hknown => ?_⟩
        refine ⟨⟨trivial, Nat.succ_pos _, trivial⟩, .refl _, rfl, fun t ht => ?_⟩
        exact Nat.lt_of_lt_of_le (hknown t ht) hle

section Calls

open World (Trades)

/-- A call that gives back what it took has dealt fairly. -/
theorem releaseFor_trades {u w' : World κ σ ν} {call : Nat} {source : Source κ}
    {taken : Option TargetId} {m : MethodSignature} {outcome result : Result}
    (h : u.Trades id factory (obtained (.ok taken)) w)
    (hrun : (releaseFor host below call id source taken m outcome).run w = some (result, w')) :
    u.Trades id factory [] w' := by
  by_cases hkept : taken = none ∨ source.isStatic = true
  · rw [releaseFor_kept hkept] at hrun
    cases hrun
    exact h.forget
  · obtain ⟨hsome, hlent⟩ := not_or.mp hkept
    obtain ⟨target, rfl⟩ := Option.ne_none_iff_exists'.mp hsome
    intro type pool hpool
    obtain ⟨_, pool', hpool', _⟩ := h type pool hpool
    rw [releaseFor, if_neg hlent, run_bind_of_eq_some (release_of_pooled hpool' target)] at hrun
    cases hrun
    exact h.giveBack type pool hpool

variable {other : SourceId}

theorem modifyPool_trades (h : other ≠ id) (change : Pool → Pool) :
    Moves (Trades id factory [])
      (modify (·.mapSource other (Source.mapPool change)) : Run κ σ ν Unit) := by
  intro w _ w' hrun
  cases hrun
  exact .same (fun s hs => (World.getElem?_mapSource_of_ne h _).trans hs) (Nat.le_refl _)

/-- Exposing something deals with no pool. -/
theorem expose_trades (value : Option Value) :
    Moves (Trades id factory []) (expose value : Run κ σ ν (Option Value)) := by
  intro w _ w' hrun
  cases hrun
  exact .same (fun _ hs => hs) (Nat.le_refl _)

theorem whileExposed_trades (exposed : Bool) (p : ProxyId) {body : Run κ σ ν α}
    (hbody : Moves (Trades id factory []) body) :
    Moves (Trades id factory []) (whileExposed exposed p body) := by
  have hlasting := Trades.lasting (σ := σ) (ν := ν) id factory
  rcases exposed with _ | _
  · exact hbody
  · refine hlasting.bind (expose_trades _) fun previous => hlasting.bind hbody fun result => ?_
    exact hlasting.bind (expose_trades _) fun _ => hlasting.pure _

section Dealing

variable (hasks : host.Asks (Request.LeavesReturns id))
  (hbelow : ∀ r, r.LeavesReturns id → Moves (Trades id factory []) (below r))

include hasks hbelow

/-- Taking a target from one source is no deal with the pool of another. -/
theorem acquire_other_trades (h : other ≠ id) :
    Moves (Trades id factory []) (acquire host below other) := by
  have hlasting := Trades.lasting (σ := σ) (ν := ν) id factory
  refine get_bind_moves fun w => ?_
  split
  · exact hlasting.pure _
  · exact hlasting.pure _
  · exact hlasting.pure _
  · exact hlasting.map (hlasting.program hbelow (hasks.make _)) _
  · split
    · exact hlasting.pure _
    · exact hlasting.map (modifyPool_trades h _) _
    · refine hlasting.bind (modifyPool_trades h _) fun _ => ?_
      refine hlasting.bind (hlasting.program hbelow (hasks.make _)) fun made => ?_
      rcases made with e | target
      · exact hlasting.map (modifyPool_trades h _) _
      · exact hlasting.pure _
  · exact hlasting.program hbelow (hasks.acquire _)

/-- Giving a target back to one source is no deal with the pool of another. -/
theorem release_other_trades (h : other ≠ id) (target : TargetId) :
    Moves (Trades id factory []) (release host below other target) := by
  have hlasting := Trades.lasting (σ := σ) (ν := ν) id factory
  refine get_bind_moves fun w => ?_
  split
  · exact hlasting.map (hlasting.trace _) _
  · exact hlasting.map (modifyPool_trades h _) _
  · exact hlasting.program hbelow (hasks.release _ _)
  · exact hlasting.pure _

/-- A call deals fairly around whatever it does with its target. -/
theorem borrowing_trades (hmake : below.MakesNew host id factory) (call : Nat) (other : SourceId)
    (source : Source κ) (m : MethodSignature)
    (body : Option TargetId → Run κ σ ν Result)
    (hbody : ∀ target, Moves (Trades id factory []) (body target)) :
    Moves (Trades id factory []) (acquireFor host below call other >>= fun
      | .error e => pure (.error e)
      | .ok target => body target >>= releaseFor host below call other source target m) := by
  have hlasting := Trades.lasting (σ := σ) (ν := ν) id factory
  intro w result w' hrun
  obtain ⟨acquired, v, hacquired, hrest⟩ := run_bind_eq_some.mp hrun
  obtain ⟨v₀, htaken, rfl⟩ := acquireFor_run hacquired
  by_cases hother : other = id
  · -- what was taken from the pool is still lent when the call gives it back
    subst hother
    have hfirst := acquire_trades hmake htaken
    rcases acquired with e | target
    · cases hrest
      exact hfirst.forget.trans (hlasting.record _ rfl)
    · obtain ⟨outcome, u, hran, hreleased⟩ := run_bind_eq_some.mp hrest
      have hthen := hlasting.bind (hlasting.record (.act (.ofAcquisition call other (.ok target))))
        (fun _ => hbody target) (run_bind_eq_some.mpr ⟨(), _, rfl, hran⟩)
      exact releaseFor_trades (hfirst.trans hthen) hreleased
  · have hacquire := acquire_other_trades hasks hbelow hother
    refine hlasting.bind (acquireFor_has hlasting.composes hacquire call) (fun acquired => ?_) hrun
    rcases acquired with e | target
    · exact hlasting.pure _
    · refine hlasting.bind (hbody target) fun outcome => ?_
      exact releaseFor_has hlasting.composes (release_other_trades hasks hbelow hother) call source
        target m outcome

theorem trading (hmake : below.MakesNew host id factory) :
    Conduct host below (Request.LeavesReturns id) (Trades id factory []) where
  toLasting := Trades.lasting id factory
  madeSource _ s := .same (fun _ => World.getElem?_push_of_some s) (Nat.le_refl _)
  asks := hasks
  requests := hbelow
  acquired other := by
    by_cases hother : other = id
    · subst hother
      exact fun _ _ _ hrun => (acquire_trades hmake hrun).forget
    · exact acquire_other_trades hasks hbelow hother
  released _ target hother := release_other_trades hasks hbelow hother target
  borrowed := borrowing_trades hasks hbelow hmake
  shown := whileExposed_trades

end Dealing

/-- Whatever is asked of the engine, it deals fairly with a pool if user code leaves it to the calls
to give targets back. -/
theorem answer_trades (hasks : host.Asks (Request.LeavesReturns id))
    (hmake : ∀ depth, (answer host depth).MakesNew host id factory) (depth : Nat)
    (r : Request κ σ ν) (hr : r.LeavesReturns id) :
    Moves (Trades id factory []) (answer host depth r) := by
  induction depth generalizing r with
  | zero => exact fun _ _ _ hrun => nomatch hrun
  | succ depth ih =>
      exact answerWith_moves (trading hasks ih (hmake depth)) (fun value _ => expose_trades value)
        r hr

end Calls

end Run

end Weaving
