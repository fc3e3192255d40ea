import Weaving.Proofs.Histories

/-
What is exposed while a call runs.  A call that is to be seen runs in a world in which its proxy is
exposed, and ends with what was exposed before, whatever happened in between.
-/
namespace Weaving

variable {κ σ ν α : Type}

namespace World

/-- The world while a proxy is exposed, if it is to be. -/
def exposing (w : World κ σ ν) (exposed : Bool) (p : ProxyId) : World κ σ ν :=
  if exposed then { w with current := some (.proxy p) } else w

/-- The world in which what was exposed before is exposed again. -/
def restoring (w : World κ σ ν) (exposed : Bool) (before : Option Value) : World κ σ ν :=
  if exposed then { w with current := before } else w

@[simp] theorem configurations_exposing (w : World κ σ ν) (exposed : Bool) (p : ProxyId) :
    (w.exposing exposed p).configurations = w.configurations := by
  cases exposed <;> rfl

@[simp] theorem calls_exposing (w : World κ σ ν) (exposed : Bool) (p : ProxyId) :
    (w.exposing exposed p).calls = w.calls := by
  cases exposed <;> rfl

@[simp] theorem calls_restoring (w : World κ σ ν) (exposed : Bool) (before : Option Value) :
    (w.restoring exposed before).calls = w.calls := by
  cases exposed <;> rfl

theorem leads_exposing (host : Host κ σ ν) (w : World κ σ ν) (exposed : Bool) (p : ProxyId) :
    w.Leads host (fun _ => True) (w.exposing exposed p) := by
  cases exposed with
  | false => exact .refl w
  | true => exact Step.exposed.leads

theorem Reachable.exposing {host : Host κ σ ν} {w : World κ σ ν} (h : Reachable host w)
    (exposed : Bool) (p : ProxyId) : Reachable host (w.exposing exposed p) :=
  h.leads (leads_exposing host w exposed p)

end World

namespace Run

/-- What runs while a proxy may be exposed ends with what was exposed before. -/
theorem whileExposed_run (exposed : Bool) (p : ProxyId) (body : Run κ σ ν α) (w : World κ σ ν) :
    (whileExposed exposed p body).run w =
      (body.run (w.exposing exposed p)).map fun (a, v) => (a, v.restoring exposed w.current) := by
  cases exposed with
  | false =>
      change body.run w = (body.run w).map id
      rw [Option.map_id]
      rfl
  | true =>
      change ((body >>= fun result => expose w.current >>= fun _ => pure result).run
        (w.exposing true p)) = _
      rw [StateT.run_bind]
      cases body.run (w.exposing true p) with
      | none => rfl
      | some q => rfl

theorem whileExposed_eq_some {exposed : Bool} {p : ProxyId} {body : Run κ σ ν α}
    {w w' : World κ σ ν} {a : α} (h : (whileExposed exposed p body).run w = some (a, w')) :
    ∃ v, body.run (w.exposing exposed p) = some (a, v) ∧ w' = v.restoring exposed w.current := by
  rw [whileExposed_run] at h
  obtain ⟨⟨b, v⟩, hv, hend⟩ := Option.map_eq_some_iff.mp h
  cases hend
  exact ⟨v, hv, rfl⟩

/-- The full course of a call begins it before there is a value. -/
theorem invokeAdvised_begins {host : Host κ σ ν} {below : Handler κ σ ν}
    (hbelow : below.Sound host) (p : ProxyId) (proxy : Proxy) (c : Configuration κ)
    (source : Source κ) (m : MethodSignature) (arguments : List Value)
    (fixed : Option (Chain κ)) {w w' : World κ σ ν} {value : Option Value}
    (h : (invokeAdvised host below p proxy c source m arguments fixed).run w =
      some (.ok value, w')) : w.calls < w'.calls := by
  obtain ⟨v', hbody, rfl⟩ := whileExposed_eq_some h
  rw [World.calls_restoring, ← w.calls_exposing c.flags.exposeProxy p]
  cases fixed with
  | some chain =>
      exact Sound.beginCall_lt (fun call =>
        settledCall_sound hbelow (fun _ _ => trivial) p proxy c.source source m arguments chain)
        hbody
  | none =>
      obtain ⟨settled, v, hsettled, hrun⟩ := run_bind_eq_some.mp hbody
      cases settled with
      | error e => cases hrun
      | ok chain =>
          have hsettling : World.Later _ v := Sound.later (chainFor_sound hbelow
            (fun _ _ => trivial) proxy.configuration m source.type) hsettled
          exact Nat.lt_of_le_of_lt hsettling.calls (Sound.beginCall_lt (fun call =>
            settledCall_sound hbelow (fun _ _ => trivial) p proxy c.source source m arguments
              chain) hrun)

end Run

end Weaving
