import Weaving.Source
import Mathlib.Data.List.Perm.Basic

/-
The accounts of a pool.  Everything that happens to a pool is one of six deals: an object is refused,
an idle one is lent, a place is reserved while a new one is made, the making ends well or fails, and
an object is returned.  Making an object is two deals, because other deals can come in between.

A ledger of the deals tells which objects are lent, how many are being made, and which were ever made.
As long as only lent objects are returned and only new ones are made, the two numbers that a pool
keeps agree with its ledger, and no object is lent twice or idle while it is lent.
-/
namespace Weaving

/-- Something that happens to a pool. -/
inductive Deal where
  /-- An object was wanted when none could be lent. -/
  | refused
  /-- An idle object was lent. -/
  | lent (target : TargetId)
  /-- A place was reserved for an object that still has to be made. -/
  | reserved
  /-- An object was made and lent. -/
  | made (target : TargetId)
  /-- An object could not be made. -/
  | failed
  /-- An object was returned. -/
  | returned (target : TargetId)
  deriving DecidableEq

namespace Pool

/-- What one deal makes of a pool. -/
inductive Step (p : Pool) : Deal → Pool → Prop where
  | refused (h : p.lend = .exhausted) : Step p .refused p
  | lent {target : TargetId} {q : Pool} (h : p.lend = .idle target q) : Step p (.lent target) q
  | reserved {q : Pool} (h : p.lend = .vacant q) : Step p .reserved q
  | made (target : TargetId) : Step p (.made target) p
  | failed : Step p .failed p.giveUp
  | returned (target : TargetId) : Step p (.returned target) (p.takeBack target)

/-- What several deals make of a pool, one after another. -/
inductive Deals : Pool → List Deal → Pool → Prop where
  | nil (p : Pool) : Deals p [] p
  | cons {p q r : Pool} {deal : Deal} {deals : List Deal} (first : p.Step deal q)
      (rest : q.Deals deals r) : Deals p (deal :: deals) r

theorem Deals.append {p q r : Pool} {deals later : List Deal} (h : p.Deals deals q)
    (hlater : q.Deals later r) : p.Deals (deals ++ later) r := by
  induction h with
  | nil p => exact hlater
  | cons first _ ih => exact .cons first (ih hlater)

theorem Step.deals {p q : Pool} {deal : Deal} (h : p.Step deal q) : p.Deals [deal] q :=
  .cons h (.nil q)

theorem lend_of_full {p : Pool} (h : p.maxSize ≤ p.active) : p.lend = .exhausted :=
  if_neg (Nat.not_lt.mpr h)

theorem lend_of_idle {p : Pool} (hfree : p.active < p.maxSize) {target : TargetId}
    {rest : List TargetId} (hidle : p.idle = target :: rest) :
    p.lend = .idle target { p with active := p.active + 1, idle := rest } := by
  rw [lend, if_pos hfree, hidle]

theorem lend_of_none {p : Pool} (hfree : p.active < p.maxSize) (hidle : p.idle = []) :
    p.lend = .vacant { p with active := p.active + 1 } := by
  rw [lend, if_pos hfree, hidle]

theorem lend_eq_idle {p q : Pool} {target : TargetId} (h : p.lend = .idle target q) :
    p.active < p.maxSize ∧ p.idle = target :: q.idle ∧
      q = { p with active := p.active + 1, idle := q.idle } := by
  rw [lend] at h
  split at h
  · rename_i hfree
    split at h
    · rename_i hidle
      cases h
      exact ⟨hfree, hidle, rfl⟩
    · cases h
  · cases h

theorem lend_eq_vacant {p q : Pool} (h : p.lend = .vacant q) :
    p.active < p.maxSize ∧ p.idle = [] ∧ q = { p with active := p.active + 1 } := by
  rw [lend] at h
  split at h
  · rename_i hfree
    split at h
    · cases h
    · rename_i hidle
      cases h
      exact ⟨hfree, hidle, rfl⟩
  · cases h

end Pool

/-- What the deals with a pool add up to. -/
structure Ledger where
  /-- The objects lent at the moment, latest first. -/
  lent : List TargetId
  /-- The number of objects being made. -/
  making : Nat
  /-- The objects ever made, latest first. -/
  made : List TargetId

namespace Ledger

/-- The ledger of a pool with which nobody has dealt. -/
def blank : Ledger := ⟨[], 0, []⟩

/-- Enters a deal. -/
def enter (l : Ledger) : Deal → Ledger
  | .refused => l
  | .lent target => { l with lent := target :: l.lent }
  | .reserved => { l with making := l.making + 1 }
  | .made target => ⟨target :: l.lent, l.making - 1, target :: l.made⟩
  | .failed => { l with making := l.making - 1 }
  | .returned target => { l with lent := l.lent.erase target }

/-- The ledger after several deals. -/
def after (l : Ledger) (deals : List Deal) : Ledger := deals.foldl enter l

/-- A deal is fair if what is returned is lent at the moment, what ends had begun, and what is made
was never made before. -/
def Allows (l : Ledger) : Deal → Prop
  | .returned target => target ∈ l.lent
  | .made target => 0 < l.making ∧ target ∉ l.made
  | .failed => 0 < l.making
  | _ => True

/-- Each of several deals is fair when it is made. -/
def AllowsAll (l : Ledger) : List Deal → Prop
  | [] => True
  | deal :: deals => l.Allows deal ∧ (l.enter deal).AllowsAll deals

theorem after_append (l : Ledger) (deals later : List Deal) :
    l.after (deals ++ later) = (l.after deals).after later :=
  List.foldl_append

theorem allowsAll_append {l : Ledger} {deals later : List Deal} :
    l.AllowsAll (deals ++ later) ↔ l.AllowsAll deals ∧ (l.after deals).AllowsAll later := by
  induction deals generalizing l with
  | nil => exact ⟨fun h => ⟨trivial, h⟩, And.right⟩
  | cons deal deals ih =>
      rw [List.cons_append, AllowsAll, AllowsAll, ih, and_assoc]
      rfl

end Ledger

/-- A pool agrees with its ledger. -/
structure Pool.Balances (limit : Nat) (p : Pool) (l : Ledger) : Prop where
  limit_eq : p.maxSize = limit
  counted : p.active = l.lent.length + l.making
  accounted : (l.lent ++ p.idle).Perm l.made
  distinct : l.made.Nodup
  bounded : l.made.length + l.making ≤ limit

namespace Pool.Balances

variable {limit : Nat} {p q : Pool} {l : Ledger}

theorem fresh (limit : Nat) : (Pool.fresh limit).Balances limit .blank where
  limit_eq := rfl
  counted := rfl
  accounted := .refl _
  distinct := List.nodup_nil
  bounded := Nat.zero_le _

/-- The objects ever made are those lent and those idle. -/
theorem length_made (h : p.Balances limit l) : l.lent.length + p.idle.length = l.made.length :=
  List.length_append.symm.trans h.accounted.length_eq

theorem nodup (h : p.Balances limit l) : (l.lent ++ p.idle).Nodup :=
  h.accounted.nodup_iff.mpr h.distinct

/-- Every fair deal keeps a pool in agreement with its ledger. -/
theorem step {deal : Deal} (h : p.Balances limit l) (hstep : p.Step deal q) (hfair : l.Allows deal) :
    q.Balances limit (l.enter deal) := by
  have hlength := h.length_made
  obtain ⟨hlimit, hcounted, haccounted, hdistinct, hbounded⟩ := h
  cases hstep with
  | refused _ => exact ⟨hlimit, hcounted, haccounted, hdistinct, hbounded⟩
  | @lent target q hlend =>
      obtain ⟨_, hidle, hq⟩ := lend_eq_idle hlend
      rw [hidle] at haccounted
      rw [hq]
      refine ⟨hlimit, ?_, List.perm_middle.symm.trans haccounted, hdistinct, hbounded⟩
      change p.active + 1 = l.lent.length + 1 + l.making
      omega
  | reserved hlend =>
      obtain ⟨hfree, hidle, rfl⟩ := lend_eq_vacant hlend
      -- nothing is idle, so every object ever made is lent
      rw [hidle, List.length_nil] at hlength
      refine ⟨hlimit, ?_, haccounted, hdistinct, ?_⟩
      · change p.active + 1 = l.lent.length + (l.making + 1)
        omega
      · change l.made.length + (l.making + 1) ≤ limit
        omega
  | made target =>
      obtain ⟨hmaking, hnew⟩ := hfair
      refine ⟨hlimit, ?_, haccounted.cons target, List.nodup_cons.mpr ⟨hnew, hdistinct⟩, ?_⟩
      · change p.active = l.lent.length + 1 + (l.making - 1)
        omega
      · change l.made.length + 1 + (l.making - 1) ≤ limit
        omega
  | failed =>
      have hmaking : 0 < l.making := hfair
      refine ⟨hlimit, ?_, haccounted, hdistinct, ?_⟩
      · change p.active - 1 = l.lent.length + (l.making - 1)
        omega
      · change l.made.length + (l.making - 1) ≤ limit
        omega
  | returned target =>
      have hlent : target ∈ l.lent := hfair
      have hpositive := List.length_pos_of_mem hlent
      refine ⟨hlimit, ?_, ?_, hdistinct, hbounded⟩
      · change p.active - 1 = (l.lent.erase target).length + l.making
        rw [List.length_erase_of_mem hlent]
        omega
      · change (l.lent.erase target ++ target :: p.idle).Perm l.made
        have hback : (target :: l.lent.erase target ++ p.idle).Perm (l.lent ++ p.idle) :=
          (List.perm_cons_erase hlent).symm.append_right p.idle
        exact (List.perm_middle.trans hback).trans haccounted

theorem deals {deals : List Deal} (h : p.Balances limit l) (hdeals : p.Deals deals q)
    (hfair : l.AllowsAll deals) : q.Balances limit (l.after deals) := by
  induction hdeals generalizing l with
  | nil p => exact h
  | cons first _ ih => exact ih (h.step first hfair.1) hfair.2

theorem active_le (h : p.Balances limit l) : p.active ≤ limit := by
  have hmade := h.length_made
  have hcounted := h.counted
  have hbounded := h.bounded
  omega

end Pool.Balances

end Weaving
