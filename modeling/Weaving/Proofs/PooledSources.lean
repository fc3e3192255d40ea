import Weaving.Proofs.PoolDeals

/-
Pooled sources keep their limit.  However targets were taken and given back, as long as only lent
targets are given back and only new ones are made: the pool counts what is lent, no target is lent
twice or idle while it is lent, and there are never more targets than the limit allows.  A target is
refused exactly when the limit is reached, and one is made exactly when none is idle.
-/
namespace Weaving

variable {κ σ ν : Type}

/-- What holds of a pool and the ledger of all deals with it.  While no target is being made, the
active ones are those lent, and the active and the idle ones together are those ever made. -/
structure Pool.InOrder (limit : Nat) (p : Pool) (l : Ledger) : Prop where
  counted : p.active = l.lent.length + l.making
  limited : p.active ≤ limit
  created : p.active + p.idle.length = l.made.length + l.making
  bounded : l.made.length + l.making ≤ limit
  distinct : l.lent.Nodup
  apart : ∀ target ∈ l.lent, target ∉ p.idle

theorem Pool.Balances.inOrder {limit : Nat} {p : Pool} {l : Ledger} (h : p.Balances limit l) :
    p.InOrder limit l where
  counted := h.counted
  limited := h.active_le
  created := by
    have hlength := h.length_made
    have hcounted := h.counted
    omega
  bounded := h.bounded
  distinct := (List.nodup_append.mp h.nodup).1
  apart target hlent hidle := (List.nodup_append.mp h.nodup).2.2 target hlent target hidle rfl

/-- The world in which a place of a pool has been reserved. -/
def World.reserving (w : World κ σ ν) (id : SourceId) (pool : Pool) : World κ σ ν :=
  w.mapSource id (Source.mapPool fun _ => { pool with active := pool.active + 1 })

namespace Run

/-- How a pooled source answers, given the pool and the ledger of all deals with it. -/
structure Serves (host : Host κ σ ν) (below : Handler κ σ ν) (id : SourceId) (factory : κ)
    (limit : Nat) (pool : Pool) (l : Ledger) (w : World κ σ ν) : Prop where
  /-- With every place taken a wish is refused; the factory is not asked and nothing changes. -/
  refuses : l.lent.length + l.making = limit → pool.Step .refused pool ∧
    (acquire host below id).run w = some (.error (Source.exhausted limit), w)
  /-- With a place free the latest of the idle targets is lent; the factory is not asked. -/
  reuses : l.lent.length + l.making < limit → ∀ target rest, pool.idle = target :: rest →
    ∃ after, pool.Step (.lent target) after ∧ (acquire host below id).run w =
      some (.ok (some target), w.mapSource id (Source.mapPool fun _ => after))
  /-- With a place free and no target idle a place is reserved and the factory is asked. -/
  asks : l.lent.length + l.making < limit → pool.idle = [] →
    pool.Step .reserved { pool with active := pool.active + 1 } ∧
    (acquire host below id).run w = (fillVacancy host below id factory).run (w.reserving id pool)
  /-- A factory that succeeds has its target lent. -/
  lends : l.lent.length + l.making < limit → pool.idle = [] → ∀ target v,
    ((host.make factory).run below).run (w.reserving id pool) = some (.ok target, v) →
    (acquire host below id).run w = some (.ok (some target), v)
  /-- A factory that fails leaves the pool as it was, unless it dealt with the pool itself. -/
  recovers : l.lent.length + l.making < limit → pool.idle = [] → ∀ e v,
    ((host.make factory).run below).run (w.reserving id pool) = some (.error e, v) →
    ∃ w', (acquire host below id).run w = some (.error e, w') ∧
      (v.sources[id]? = (w.reserving id pool).sources[id]? → w'.sources[id]? = w.sources[id]?)
  /-- A target given back is idle from then on. -/
  takesBack : ∀ target, pool.Step (.returned target) (pool.takeBack target) ∧
    (release host below id target).run w =
      some (.ok (), w.mapSource id (Source.mapPool (·.takeBack target)))

variable {host : Host κ σ ν} {below : Handler κ σ ν} {id : SourceId} {type : TypeInfo}
  {factory : κ} {limit : Nat} {pool : Pool} {l : Ledger} {w : World κ σ ν}

theorem fillVacancy_of_made {target : TargetId} {v : World κ σ ν}
    (h : ((host.make factory).run below).run w = some (.ok target, v)) :
    (fillVacancy host below id factory).run w = some (.ok (some target), v) := by
  rw [fillVacancy, run_bind_of_eq_some h]
  rfl

theorem fillVacancy_of_failed {e : AopError} {v : World κ σ ν}
    (h : ((host.make factory).run below).run w = some (.error e, v)) :
    (fillVacancy host below id factory).run w =
      some (.error e, v.mapSource id (Source.mapPool Pool.giveUp)) := by
  rw [fillVacancy, run_bind_of_eq_some h]
  rfl

/-- A place that was reserved and given back leaves the pool as it was. -/
theorem giveUp_reserving (hpool : w.sources[id]? = some (.pooled type pool factory))
    {v : World κ σ ν} (hsame : v.sources[id]? = (w.reserving id pool).sources[id]?) :
    (v.mapSource id (Source.mapPool Pool.giveUp)).sources[id]? = w.sources[id]? := by
  rw [World.reserving, World.getElem?_mapSource_self hpool] at hsame
  rw [World.getElem?_mapSource_self hsame, hpool]
  rfl

theorem serves_of_balances (hpool : w.sources[id]? = some (.pooled type pool factory))
    (h : pool.Balances limit l) : Serves host below id factory limit pool l w := by
  have hvacant (hfree : l.lent.length + l.making < limit) (hidle : pool.idle = []) :
      pool.lend = .vacant { pool with active := pool.active + 1 } :=
    Pool.lend_of_none (by rwa [h.counted, h.limit_eq]) hidle
  refine ⟨fun hfull => ?_, fun hfree target rest hidle => ?_, fun hfree hidle => ?_,
    fun hfree hidle target v hrun => ?_, fun hfree hidle e v hrun => ?_, fun target => ?_⟩
  · have hlend : pool.lend = .exhausted :=
      Pool.lend_of_full (Nat.le_of_eq (h.limit_eq.trans (hfull.symm.trans h.counted.symm)))
    rw [acquire_of_exhausted hpool hlend, h.limit_eq]
    exact ⟨.refused hlend, rfl⟩
  · rw [← h.counted, ← h.limit_eq] at hfree
    have hlend := Pool.lend_of_idle hfree hidle
    exact ⟨_, .lent hlend, acquire_of_idle hpool hlend⟩
  · exact ⟨.reserved (hvacant hfree hidle), acquire_of_vacant hpool (hvacant hfree hidle)⟩
  · exact (acquire_of_vacant hpool (hvacant hfree hidle)).trans (fillVacancy_of_made hrun)
  · exact ⟨_, (acquire_of_vacant hpool (hvacant hfree hidle)).trans (fillVacancy_of_failed hrun),
      giveUp_reserving hpool⟩
  · exact ⟨.returned target, release_of_pooled hpool target⟩

/-- A pool with which everybody has dealt fairly is in order and serves as it should.  A run in which
user code leaves it to the calls to give targets back, and in which the factory makes new targets,
deals fairly with it from then on, however its calls are nested, and gives back what its calls took. -/
theorem pool_stays_in_order (host : Host κ σ ν) (id : SourceId) (type : TypeInfo) (factory : κ)
    (limit : Nat) (deals : List Deal) (pool : Pool) (hdeals : (Pool.fresh limit).Deals deals pool)
    (hfair : Ledger.blank.AllowsAll deals) :
    pool.InOrder limit (Ledger.blank.after deals) ∧
      (∀ (below : Handler κ σ ν) (w : World κ σ ν),
        w.sources[id]? = some (.pooled type pool factory) →
        Serves host below id factory limit pool (Ledger.blank.after deals) w) ∧
      ∀ (α : Type) (program : Code κ σ ν α) (depth : Nat) (w w' : World κ σ ν) (a : α),
        w.sources[id]? = some (.pooled type pool factory) →
        (∀ target ∈ (Ledger.blank.after deals).made, target < w.targets.size) →
        host.Asks (Request.LeavesReturns id) → program.Asks (Request.LeavesReturns id) →
        (∀ depth, (answer host depth).MakesNew host id factory) →
        code host depth program w = some (a, w') →
        ∃ later pool', w'.sources[id]? = some (.pooled type pool' factory) ∧
          (Pool.fresh limit).Deals (deals ++ later) pool' ∧
          Ledger.blank.AllowsAll (deals ++ later) ∧
          pool'.InOrder limit (Ledger.blank.after (deals ++ later)) ∧
          (∀ target ∈ (Ledger.blank.after (deals ++ later)).made, target < w'.targets.size) ∧
          (Ledger.blank.after (deals ++ later)).making = (Ledger.blank.after deals).making ∧
          (Ledger.blank.after deals).lent.Subperm (Ledger.blank.after (deals ++ later)).lent := by
  have hbalances := (Pool.Balances.fresh limit).deals hdeals hfair
  refine ⟨hbalances.inOrder, fun below w hpool => serves_of_balances hpool hbalances, ?_⟩
  intro α program depth w w' a hpool hmade hasks hprogram hmake hrun
  have hmoves := (World.Trades.lasting id factory).program (answer_trades hasks hmake depth) hprogram
  obtain ⟨later, pool', hpool', _, hlater, hgains⟩ := hmoves hrun type pool hpool
  have hgained := hgains _ hmade
  have hall : Ledger.blank.AllowsAll (deals ++ later) :=
    Ledger.allowsAll_append.mpr ⟨hfair, hgained.fair⟩
  have htogether := hdeals.append hlater
  refine ⟨later, pool', hpool', htogether, hall,
    ((Pool.Balances.fresh limit).deals htogether hall).inOrder, ?_⟩
  rw [Ledger.after_append]
  exact ⟨hgained.made, hgained.making, hgained.lent⟩

section Printing

def printerType : TypeInfo := ⟨6, "Printer", [], false, false, false⟩

def printerMethod : MethodSignature :=
  { declaringType := printerType, name := "print", returnType := .unit }

/-- Printers are made anew, and a printer asks its own proxy to print when it is asked to. -/
def printerHost : Host Unit Unit Unit :=
  { Host.idle with
    make := fun _ => do return .ok (← Code.ask (.newTarget printerType ()))
    target := fun _ _ m arguments => Code.ask (.invoke 0 m arguments) }

/-- A pool of one printer, which was made, was wanted while it was lent, and was given back. -/
def printerDeals : List Deal := [.reserved, .made 0, .refused, .returned 0]

def printerPool : Pool := ⟨1, 0, [0]⟩

def printerWorld : World Unit Unit Unit :=
  { World.initial () with
    targets := #[⟨printerType, ()⟩], sources := #[.pooled printerType printerPool ()] }

def printerProgram : Code Unit Unit Unit Result := do
  let _ ← Code.ask (.makeProxy { source := some 0, advisors := [.unconditional ⟨"noted", .before ()⟩] })
  Code.ask (.invoke 0 printerMethod [])

theorem printerHost_makesNew (depth : Nat) :
    (answer printerHost depth).MakesNew printerHost 0 () := by
  intro w outcome w' hrun
  cases depth with
  | zero => cases hrun
  | succ depth =>
      cases hrun
      rw [Array.size_push]
      refine ⟨rfl, Nat.le_succ _, fun target htarget => ?_⟩
      cases htarget
      exact ⟨Nat.le_refl _, Nat.lt_succ_self _⟩

theorem printerHost_asks : printerHost.Asks (Request.LeavesReturns 0) where
  around _ := ⟨trivial, fun _ => trivial⟩
  before _ := trivial
  afterReturning _ _ := trivial
  afterThrowing _ _ := trivial
  after _ := trivial
  target _ _ _ _ := ⟨trivial, fun _ => trivial⟩
  make _ := ⟨trivial, fun _ => trivial⟩
  acquire _ := trivial
  release _ _ := trivial
  chain _ _ _ _ _ := trivial
  builder _ := trivial

/-- Why no target was to be had. -/
def refusal? : Result → Option String
  | .error (.targetUnavailable _ reason) => some reason
  | _ => none

/-- The one printer is lent to the call from outside, the call that it makes itself is refused, and it
is idle again in the end. -/
theorem pool_stays_in_order_printer :
    ∃ (later : List Deal) (pool' : Pool) (result : Result) (w' : World Unit Unit Unit),
      code printerHost 4 printerProgram printerWorld = some (result, w') ∧
      refusal? result = some "pool exhausted (max size 1)" ∧
      w'.sources[0]? = some (.pooled printerType pool' ()) ∧ pool' = printerPool ∧
      pool'.InOrder 1 (Ledger.blank.after (printerDeals ++ later)) := by
  have hdeals : (Pool.fresh 1).Deals printerDeals printerPool :=
    .cons (.reserved rfl) (.cons (.made 0) (.cons (.refused rfl) (.cons (.returned 0) (.nil _))))
  have hfair : Ledger.blank.AllowsAll printerDeals :=
    ⟨trivial, ⟨by decide, by decide⟩, trivial, List.mem_singleton_self 0, trivial⟩
  have hends : (code printerHost 4 printerProgram printerWorld).map
      (fun r => (refusal? r.1, (r.2.sources[0]?).bind Source.pool?)) =
        some (some "pool exhausted (max size 1)", some printerPool) := by decide +kernel
  obtain ⟨⟨result, w'⟩, hrun, hends⟩ := Option.map_eq_some_iff.mp hends
  obtain ⟨_, _, hcode⟩ := pool_stays_in_order printerHost 0 printerType () 1 printerDeals
    printerPool hdeals hfair
  obtain ⟨later, pool', hpool', _, _, horder, _⟩ := hcode _ printerProgram 4 printerWorld w' result
    rfl (by decide) printerHost_asks ⟨trivial, fun _ => ⟨trivial, fun _ => trivial⟩⟩
    printerHost_makesNew hrun
  obtain ⟨hrefused, hleft⟩ := Prod.mk.inj hends
  dsimp only at hleft
  rw [hpool'] at hleft
  exact ⟨later, pool', result, w', hrun, hrefused, hpool', Option.some.inj hleft, horder⟩

end Printing

end Run

end Weaving
