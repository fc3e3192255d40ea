import Weaving.Proofs.ChainLives
import Weaving.Proofs.Contributions

/-
What asking for a chain leaves behind when chains are built by a registry of adapters.  The chain is
the one that is remembered, or else what the advisors in force make of the method.  Nothing is done
meanwhile: lines are logged, matchers are asked, and a frozen configuration learns the chain.
-/
namespace Weaving

variable {κ σ ν : Type}

/-- Whether an event is something done: a note of the user's code, or an act of a call. -/
def Event.isDoing : Event ν → Bool
  | .note _ => true
  | .act _ => true
  | _ => false

namespace World

variable {u v w : World κ σ ν}

/-- What was done in a world, latest first; log lines and questions to matchers are left out. -/
def doings (w : World κ σ ν) : List (Event ν) := w.trace.filter (·.isDoing)

/-- From one world to the other lines may have been logged and questions put, and that is all. -/
structure Quiet (w v : World κ σ ν) : Prop where
  same : v = w.withTrace v.trace
  doings : v.doings = w.doings

namespace Quiet

theorem refl (w : World κ σ ν) : w.Quiet w := ⟨rfl, rfl⟩

theorem trans (huv : u.Quiet v) (hvw : v.Quiet w) : u.Quiet w where
  same := by
    rw [hvw.same, huv.same]
    rfl
  doings := hvw.doings.trans huv.doings

theorem record {e : Event ν} (h : e.isDoing = false) : w.Quiet (w.record e) :=
  ⟨rfl, List.filter_cons_of_neg (by simp [h])⟩

theorem asking (w : World κ σ ν) (questions : List Question) : w.Quiet (w.asking questions) := by
  refine ⟨rfl, ?_⟩
  have hnone : ((questions.map Event.asked).reverse : List (Event ν)).filter (·.isDoing) = [] := by
    simp [List.filter_eq_nil_iff, Event.isDoing]
  change ((questions.map Event.asked).reverse ++ w.trace : List (Event ν)).filter _ = _
  rw [List.filter_append, hnone]
  rfl

theorem building (w : World κ σ ν) (m : MethodSignature) (target : Option TypeInfo)
    (questions : List Question) (outcome : Except AopError (Chain κ)) :
    w.Quiet (w.building m target questions outcome) := by
  cases outcome with
  | error e => exact asking w questions
  | ok chain => exact (asking w questions).trans (record rfl)

theorem of_alike (h : w.Alike v) : w.Quiet v := by
  refine ⟨h.1, ?_⟩
  have hlines : ∀ x : World κ σ ν, x.doings = x.happened.filter (·.isDoing) := by
    intro x
    rw [World.doings, World.happened, List.filter_filter]
    refine List.filter_congr fun e _ => ?_
    cases e <;> rfl
  rw [hlines, hlines, h.2]

/-- A change that does not look at the trace stays as quiet as the worlds it is made in. -/
theorem map (h : w.Quiet v) (change : World κ σ ν → World κ σ ν)
    (blind : ∀ (u : World κ σ ν) trace,
      change (u.withTrace trace) = (change u).withTrace trace) :
    (change w).Quiet (change v) := by
  have htrace : ∀ u : World κ σ ν, (change u).trace = u.trace := by
    intro u
    have hself : change u = (change u).withTrace u.trace := blind u u.trace
    rw [hself]
    rfl
  refine ⟨?_, ?_⟩
  · rw [htrace, ← blind, ← h.same]
  · rw [World.doings, World.doings, htrace, htrace]
    exact h.doings

end Quiet

/-- It only matters what a change makes of the configuration that is there. -/
theorem mapConfiguration_congr {id : ConfigurationId} {c : Configuration κ}
    {f g : Configuration κ → Configuration κ} (hc : w.configurations[id]? = some c)
    (h : f c = g c) : w.mapConfiguration id f = w.mapConfiguration id g := by
  have hsame : w.configurations.modify id f = w.configurations.modify id g := by
    apply Array.ext_getElem?
    intro other
    rw [Array.getElem?_modify, Array.getElem?_modify]
    split
    · rename_i hid
      subst hid
      rw [hc, Option.map_some, Option.map_some, h]
    · rfl
  rw [mapConfiguration, mapConfiguration, hsame]

theorem mapConfiguration_self {id : ConfigurationId} {c : Configuration κ}
    (hc : w.configurations[id]? = some c) : (w.mapConfiguration id fun _ => c) = w := by
  rw [mapConfiguration_congr hc (g := fun c => c) rfl]
  have hsame : (w.configurations.modify id fun c => c) = w.configurations := by
    apply Array.ext_getElem?
    intro other
    rw [Array.getElem?_modify]
    split
    · rw [Option.map_id']
    · rfl
  rw [mapConfiguration, hsame]

end World

namespace Configuration

/-- What the advisors in force make of a method. -/
def outcome (c : Configuration κ) (registry : AdapterRegistry κ) (m : MethodSignature)
    (target : Option TypeInfo) : Except AopError (Chain κ) :=
  Chain.assemble registry (c.advisors.filter (·.contributes c.flags.preFiltered
    (c.advisors.any (·.introducesTo (Chain.effectiveType m target))) m
    (Chain.effectiveType m target)))

/-- What a configuration answers to the request for a chain. -/
def settled (c : Configuration κ) (registry : AdapterRegistry κ) (m : MethodSignature)
    (target : Option TypeInfo) : Except AopError (Chain κ) :=
  match c.frozen, c.cache.find? (.of m target) with
  | true, some chain => .ok chain
  | _, _ => c.outcome registry m target

/-- A configuration after the request for a chain. -/
def settling (c : Configuration κ) (registry : AdapterRegistry κ) (m : MethodSignature)
    (target : Option TypeInfo) : Configuration κ :=
  if c.frozen then c.learn (.of m target) (c.settled registry m target) else c

variable {c : Configuration κ} {registry : AdapterRegistry κ} {m : MethodSignature}
  {target : Option TypeInfo}

theorem settled_mutable (h : c.frozen = false) :
    c.settled registry m target = c.outcome registry m target := by
  simp [settled, h]

theorem settled_hit (h : c.frozen = true) {chain : Chain κ}
    (hfound : c.cache.find? (.of m target) = some chain) :
    c.settled registry m target = .ok chain := by
  simp [settled, h, hfound]

theorem settled_miss (hfound : c.cache.find? (.of m target) = none) :
    c.settled registry m target = c.outcome registry m target := by
  rw [settled, hfound]
  cases c.frozen <;> rfl

theorem settling_mutable (h : c.frozen = false) : c.settling registry m target = c := by
  simp [settling, h]

theorem settling_hit (h : c.frozen = true) {chain : Chain κ}
    (hfound : c.cache.find? (.of m target) = some chain) :
    c.settling registry m target = c := by
  rw [settling, if_pos h, settled_hit h hfound, learn, remember_of_find? hfound]

theorem settling_unsettled {e : AopError} (h : c.settled registry m target = .error e) :
    c.settling registry m target = c := by
  rw [settling, h]
  split
  · rfl
  · rfl

/-- Nothing but what is remembered changes with the request for a chain. -/
theorem settling_eq (c : Configuration κ) (registry : AdapterRegistry κ) (m : MethodSignature)
    (target : Option TypeInfo) :
    c.settling registry m target =
      { c with cache := (c.settling registry m target).cache } := by
  rw [settling]
  split
  · cases c.settled registry m target <;> rfl
  · rfl

/-- After the request for a chain a frozen configuration remembers the answer. -/
theorem find?_settling (h : c.frozen = true) (key : ChainKey) :
    (c.settling registry m target).cache.find? key =
      if key = .of m target then (c.settled registry m target).toOption
      else c.cache.find? key := by
  rcases hfound : c.cache.find? (.of m target) with _ | chain
  · rw [settling, if_pos h]
    rcases hsettled : c.settled registry m target with e | chain
    · rw [learn]
      split
      · rename_i hkey
        rw [hkey, hfound]
        rfl
      · rfl
    · rw [learn, remember]
      split
      · rename_i hkey
        rw [hkey, find?_insertNew_self, hfound]
        rfl
      · rename_i hkey
        exact Assoc.get?_putNew_of_ne chain c.cache.entries hkey
  · rw [settling_hit h hfound, settled_hit h hfound]
    split
    · rename_i hkey
      rw [hkey, hfound]
      rfl
    · rfl

theorem later_settling (c : Configuration κ) (registry : AdapterRegistry κ) (m : MethodSignature)
    (target : Option TypeInfo) : c.Later (c.settling registry m target) := by
  rw [settling_eq]
  refine ⟨rfl, rfl, rfl, rfl, id, fun _ => rfl, fun _ => rfl, fun hfrozen key chain hfound => ?_⟩
  change (c.settling registry m target).cache.find? key = some chain
  rw [find?_settling hfrozen]
  split
  · rename_i hkey
    rw [hkey] at hfound
    rw [settled_hit hfrozen hfound]
    rfl
  · exact hfound

end Configuration

namespace Run

variable {host : Host κ σ ν} {below : Handler κ σ ν} {id : ConfigurationId} {c : Configuration κ}
  {registry : AdapterRegistry κ} {w : World κ σ ν}

theorem buildChain_quiet (host : Host κ σ ν) (below : Handler κ σ ν)
    (hfactory : c.chainFactory = .standard registry) (m : MethodSignature)
    (target : Option TypeInfo) (w : World κ σ ν) :
    ∃ v, (buildChain host below c m target).run w = some (c.outcome registry m target, v) ∧
      w.Quiet v := by
  obtain ⟨questions, _, hrun⟩ :=
    buildFrom_run registry c.advisors c.flags.preFiltered m target rfl rfl w
  refine ⟨_, ?_, .building w m target questions (c.outcome registry m target)⟩
  rw [buildChain, hfactory]
  exact hrun

/-- Asking for a chain settles it, and a frozen configuration learns it. -/
theorem chainFor_quiet (host : Host κ σ ν) (below : Handler κ σ ν)
    (hc : w.configurations[id]? = some c)
    (hfactory : c.chainFactory = .standard registry) (m : MethodSignature)
    (target : Option TypeInfo) :
    ∃ v, (chainFor host below id m target).run w = some (c.settled registry m target, v) ∧
      (w.mapConfiguration id fun _ => c.settling registry m target).Quiet v := by
  obtain ⟨v, hbuild, hquiet⟩ := buildChain_quiet host below hfactory m target w
  rcases hfrozen : c.frozen with _ | _
  · refine ⟨v, ?_, ?_⟩
    · rw [chainFor_mutable hc hfrozen, Configuration.settled_mutable hfrozen]
      exact hbuild
    · rw [Configuration.settling_mutable hfrozen, World.mapConfiguration_self hc]
      exact hquiet
  · rcases hfound : c.cache.find? (.of m target) with _ | chain
    · have hv : v.configurations[id]? = some c := by
        rw [hquiet.same]
        exact hc
      rw [Configuration.settling, if_pos hfrozen, Configuration.settled_miss hfound,
        chainFor_frozen hc hfrozen, cachedOr, get_bind_run]
      simp only [cache?_ofConfiguration hc, hfound]
      rw [run_bind_of_eq_some hbuild]
      rcases houtcome : c.outcome registry m target with e | chain
      · refine ⟨v, rfl, ?_⟩
        rw [Configuration.learn, World.mapConfiguration_self hc]
        exact hquiet
      · let learnt : World κ σ ν := (v.record (.logged (ChainCache.insertionLine m target))).mapCache
          (.ofConfiguration id) (·.insertNew (.of m target) chain)
        have hlearnt : learnt.configurations[id]? = some (c.remember (.of m target) chain) := by
          change (v.configurations.modify id (·.remember (.of m target) chain))[id]? = _
          rw [Array.getElem?_modify, if_pos rfl, hv]
          rfl
        have hasked : (learnt.cache? (.ofConfiguration id)).bind (·.find? (.of m target)) =
            some chain := by
          rw [cache?_ofConfiguration hlearnt]
          simp [Configuration.remember, Configuration.find?_insertNew_self, hfound]
        refine ⟨learnt, ?_, ?_⟩
        · change some (Except.ok (((learnt.cache? (.ofConfiguration id)).bind
            (·.find? (.of m target))).getD chain), learnt) = _
          rw [hasked]
          rfl
        · rw [Configuration.learn, World.mapConfiguration_congr hc
            (g := fun c => c.remember (.of m target) chain) rfl]
          exact (hquiet.trans (.record rfl)).map
            (·.mapConfiguration id (·.remember (.of m target) chain)) fun _ _ => rfl
    · refine ⟨w, ?_, ?_⟩
      · rw [chainFor_of_remembered hc hfrozen hfound, Configuration.settled_hit hfrozen hfound]
      · rw [Configuration.settling_hit hfrozen hfound, World.mapConfiguration_self hc]
        exact .refl w

end Run

end Weaving
