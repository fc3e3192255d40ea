import Weaving.Proofs.FullCourses

/-
Calls run the chains that their configurations prescribe at the time.  Three things remember earlier
decisions: the callbacks of a subclass proxy, the chains settled with its dispatcher, and the chains
that a frozen configuration keeps.  None of them outlives what it rests on: a callback that leaves out
the building of a chain is chosen only once the advisors can no longer change.
-/
namespace Weaving

variable {κ σ ν : Type} {host : Host κ σ ν} {identity : MethodKey → Prop} {depth : Nat}

/-- Building chains from a configuration comes out the same for methods with one key on target types
with one identity, whenever it is done. -/
def Configuration.Consistent (host : Host κ σ ν) (identity : MethodKey → Prop)
    (c : Configuration κ) : Prop :=
  ∀ (m m' : MethodSignature) (target target' : Option TypeInfo) (depth depth' : Nat)
    (u u' v v' : World κ σ ν) (r r' : Except AopError (Chain κ)),
    ChainKey.of m target = ChainKey.of m' target' →
    u.Visited host identity → v.Visited host identity →
    (Run.buildChain host (Run.answer host depth) c m target).run u = some (r, u') →
    (Run.buildChain host (Run.answer host depth') c m' target').run v = some (r', v') → r = r'

/-- A registry builds consistently if its matchers treat equal keys alike. -/
theorem Configuration.consistent_of_standard {c : Configuration κ} {registry : AdapterRegistry κ}
    (hfactory : c.chainFactory = .standard registry)
    (halike : ∀ (m m' : MethodSignature) (target target' : Option TypeInfo),
      ChainKey.of m target = ChainKey.of m' target' →
      ((Chain.build registry c.advisors c.flags.preFiltered m target).run []).1 =
        ((Chain.build registry c.advisors c.flags.preFiltered m' target').run []).1) :
    c.Consistent host identity := by
  intro m m' target target' depth depth' u u' v v' r r' hkey _ _ hbuilt hbuilt'
  obtain ⟨x, hx, _⟩ := Run.buildChain_of_standard host (Run.answer host depth) hfactory m target u
  obtain ⟨y, hy, _⟩ :=
    Run.buildChain_of_standard host (Run.answer host depth') hfactory m' target' v
  cases hx.symm.trans hbuilt
  cases hy.symm.trans hbuilt'
  exact halike m m' target target' hkey

/-- The chain that a configuration prescribes for a method on a target type in a world, and the world
in which it has been settled. -/
structure Configuration.Prescribes (host : Host κ σ ν) (identity : MethodKey → Prop) (depth : Nat)
    (c : Configuration κ) (m : MethodSignature) (target : Option TypeInfo) (u : World κ σ ν)
    (chain : Chain κ) (v : World κ σ ν) : Prop where
  /-- As long as the advisors may change, the chain is built from them then and there. -/
  current : c.frozen = false →
    (Run.buildChain host (Run.answer host depth) c m target).run u = some (.ok chain, v)
  /-- Once they may not, it was built from them at some time, for a method with the same key. -/
  snapshot : c.frozen = true → ∃ m' target', ChainKey.of m' target' = ChainKey.of m target ∧
    c.Makes host identity m' target' chain
  /-- If keys determine chains, no other chain can be built from them. -/
  only : c.Consistent host identity → ∀ (depth' : Nat) (x x' : World κ σ ν)
    (r : Except AopError (Chain κ)), x.Visited host identity →
    (Run.buildChain host (Run.answer host depth') c m target).run x = some (r, x') →
    r = .ok chain

theorem Configuration.Makes.before {c c' : Configuration κ} {m : MethodSignature}
    {target : Option TypeInfo} {chain : Chain κ} (h : c'.Makes host identity m target chain)
    (hlater : c.Later c') (hfrozen : c.frozen = true) : c.Makes host identity m target chain := by
  obtain ⟨depth, u, u', hu, hbuilt⟩ := h
  rw [hlater.buildChain_eq hfrozen] at hbuilt
  exact ⟨depth, u, u', hu, hbuilt⟩

namespace Run

section Settling

variable {id : ConfigurationId} {c : Configuration κ} {m : MethodSignature}
  {target : Option TypeInfo} {u v : World κ σ ν}

/-- The chain that is settled for a call is the one that its configuration prescribes. -/
theorem chainFor_prescribes (hhost : host.Proper identity True) (hu : u.Visited host identity)
    (hc : u.configurations[id]? = some c) {chain : Chain κ}
    (h : (chainFor host (answer host depth) id m target).run u = some (.ok chain, v)) :
    c.Prescribes host identity depth m target u chain v := by
  have haccord := answer_accord hhost depth
  by_cases hfrozen : c.frozen = true
  · obtain ⟨c', hc', _, hfound⟩ := chainFor_remembers haccord.sound hc hfrozen h
    have hv := ((chainFor_agree haccord id m target u ⟨hu, trivial⟩).ends h).visited
    obtain ⟨_, m', target', hkey, hmakes⟩ := hv.remembers hc' hfound
    have hsettling : u.Later v :=
      Sound.later (chainFor_sound haccord.sound (fun _ _ => trivial) id m target) h
    obtain ⟨c'', hc'', hlater⟩ := hsettling.configurations id c hc
    obtain rfl : c'' = c' := Option.some.inj (hc''.symm.trans hc')
    have hmade := hmakes.before hlater hfrozen
    refine ⟨fun hmutable => ?_, fun _ => ⟨m', target', hkey, hmade⟩, ?_⟩
    · rw [hfrozen] at hmutable
      cases hmutable
    · intro hconsistent depth' x x' r hx hbuilt
      obtain ⟨depth₀, u₀, u₀', hu₀, hbuilt₀⟩ := hmade
      exact hconsistent m m' target target' depth' depth₀ x x' u₀ u₀' r (.ok chain) hkey.symm hx
        hu₀ hbuilt hbuilt₀
  · rw [chainFor_mutable hc (by simpa using hfrozen)] at h
    refine ⟨fun _ => h, fun hfroze => absurd hfroze hfrozen, ?_⟩
    intro hconsistent depth' x x' r hx hbuilt
    exact hconsistent m m target target depth' depth x x' u v r (.ok chain) rfl hx hu hbuilt h

end Settling

end Run

section Calls

open Run

variable {p : ProxyId} {proxy : Proxy} {c : Configuration κ} {source : Source κ}
  {m : MethodSignature} {arguments : List Value} {w w' : World κ σ ν} {result : Result}

/-- The configuration of a passage has come from the one before the call, and prescribes the chain. -/
theorem Course.prescribes (hhost : host.Proper identity True) {passage : Passage κ σ ν}
    (hc : w.configurations[proxy.configuration]? = some c)
    (h : Course host identity depth p proxy source m arguments w (some passage) result w') :
    c.Later passage.configuration ∧ ∃ u, passage.configuration.Prescribes host identity depth m
      source.type u passage.chain passage.first := by
  cases h with
  | ran takenOn visited inForce settling settled running ends =>
      obtain ⟨c', hc', hlater⟩ := takenOn.leads.later.configurations _ c hc
      cases hc'.symm.trans inForce
      refine ⟨hlater, _, chainFor_prescribes hhost (visited.exposing _ p) ?_ settling⟩
      rwa [World.configurations_exposing]

/-- It runs that chain over the source that the proxy has had all along. -/
theorem Course.runs (hhost : host.Proper identity True) {passage : Passage κ σ ν}
    (hc : w.configurations[proxy.configuration]? = some c)
    (h : Course host identity depth p proxy source m arguments w (some passage) result w') :
    (runSettled host (answer host depth) p proxy c.source source m arguments passage.chain).run
      passage.first = some (result, passage.last) := by
  obtain ⟨hlater, -⟩ := h.prescribes hhost hc
  rw [← hlater.source]
  exact h.running

end Calls

namespace Run

section Growing

/-- The keys of the identity methods of the root type. -/
def identityKeys (key : MethodKey) : Prop :=
  key ∈ [MethodSignature.equals.key, MethodSignature.hashCode.key, MethodSignature.finalizer.key]

end Growing

end Run

end Weaving
