import Weaving.Pattern.Regex
import Weaving.Proofs.ChainsInForce
import Weaving.Proofs.MadeProxies

/-
What comes of a factory.  Two things can be missing: anything to make a proxy of, and the type that a
subclass is to stand for.  All that can go wrong besides is the building of a chain, and chains are
built this early only for a frozen subclass proxy whose source is static.  The strategy is settled by
the contracts that are offered once the advisors have been filtered.
-/
namespace Weaving

variable {κ σ ν : Type}

/-- What a computation that puts questions comes to. -/
def Asking.answer {α : Type} (x : Asking α) : α := (x.run []).1

theorem Asking.Yields.answer_eq {α : Type} {x : Asking α} {allowed : Question → Prop} {a : α}
    (h : x.Yields allowed a) : x.answer = a := by
  obtain ⟨questions, hrun, _⟩ := h []
  rw [answer, hrun]

namespace ProxyFactory

/-- Whether the proxies of a factory are to stand for the type of their targets. -/
def wantsSubclass (f : ProxyFactory κ) (type : Option TypeInfo) : Bool :=
  !((type.map (·.contract)).getD false) &&
    (f.flags.proxyTargetClass || f.flags.optimize || (f.offered type).isEmpty)

/-- The source that the targets of a factory's proxy come from: without one it gets one that is new and
empty. -/
def DrawsFrom (f : ProxyFactory κ) (w : World κ σ ν) (id : SourceId) (source : Source κ) : Prop :=
  match f.source with
  | some given => id = given ∧ w.sources[given]? = some source
  | none => id = w.sources.size ∧ source = .empty none

/-- The error of a factory that has nothing to make a proxy of. -/
def unspecified : AopError := .configuration "No advisors and no target source specified"

/-- The error of a factory that is to make a subclass of an unknown type. -/
def untyped : AopError := .configuration
  "Target type is required for subclass proxy: neither a target nor contracts were given"

theorem kept_flags (f : ProxyFactory κ) (type : Option TypeInfo) :
    (f.kept type).1 = { f.flags with preFiltered := (f.kept type).1.preFiltered } := by
  cases type with
  | none => rfl
  | some type => exact f.screened_flags type

/-- What a configuration wants, its factory wants; a contract exposed for want of others comes only with
targets that no subclass stands for. -/
theorem wantsSubclass_eq {f : ProxyFactory κ} {type : Option TypeInfo} {c : Configuration κ}
    (hflags : c.flags = (f.kept type).1)
    (hinterfaces : c.interfaces =
      if (f.offered type).isEmpty then (type.filter (·.contract)).toList
      else (f.offered type).eraseDups) :
    c.wantsSubclass type = f.wantsSubclass type := by
  rw [Configuration.wantsSubclass, wantsSubclass, hflags, hinterfaces, kept_flags]
  cases hcontract : (type.map (·.contract)).getD false with
  | true => rfl
  | false =>
      have hnone : type.filter (·.contract) = none := by
        cases type with
        | none => rfl
        | some own => simpa [Option.filter] using hcontract
      rw [hnone]
      cases hempty : (f.offered type).isEmpty with
      | true => rfl
      | false =>
          rw [if_neg Bool.false_ne_true, isEmpty_eraseDups, hempty]

theorem wantsSubclass_assembled (f : ProxyFactory κ) (id : SourceId) (type : Option TypeInfo) :
    (f.assembled id type).wantsSubclass type = f.wantsSubclass type := by
  refine wantsSubclass_eq ?_ (f.interfaces_assembled id type)
  rw [assembled_eq]

theorem wantsSubclass_iff {f : ProxyFactory κ} {type : Option TypeInfo} :
    f.wantsSubclass type = true ↔ (∀ own, type = some own → own.contract = false) ∧
      (f.flags.proxyTargetClass = true ∨ f.flags.optimize = true ∨ f.offered type = []) := by
  rw [wantsSubclass, Bool.and_eq_true, Bool.or_eq_true, Bool.or_eq_true, or_assoc,
    List.isEmpty_iff]
  refine and_congr_left fun _ => ?_
  cases type with
  | none => simp
  | some own => simp

/-- The advisors that a factory was given are kept unless it filters them for a type. -/
theorem kept_of_unfiltered {f : ProxyFactory κ} {type : Option TypeInfo}
    (h : f.preFilter = false ∨ type = none) : (f.kept type).2 = f.advisors := by
  cases type with
  | none => rfl
  | some own =>
      have hplain : f.preFilter = false := h.resolve_right fun hnone => by cases hnone
      rw [kept, screened, hplain]
      rfl

/-- If it does, those are kept that can apply to the type. -/
theorem kept_of_filtered {f : ProxyFactory κ} {own : TypeInfo} (h : f.preFilter = true) :
    (f.kept (some own)).2 = f.advisors.filter fun a =>
      (a.canApply own f.methods (f.advisors.any (·.introducesTo own))).answer := by
  rw [kept, screened, if_pos h]
  exact List.filter_congr fun a _ => (a.canApply_yields).answer_eq.symm

section Made

variable {f : ProxyFactory κ} {type : Option TypeInfo} {proxy : Proxy} {c : Configuration κ}

theorem Made.strategy_iff (h : f.Made type proxy c) :
    proxy.strategy = .subclass ↔ f.wantsSubclass type = true := by
  rw [← wantsSubclass_eq h.flags h.interfaces]
  rcases h.routing with ⟨hwants, hdispatch, _⟩ | ⟨own, d, hwants, _, hdispatch, _⟩
  · rw [Proxy.strategy, hdispatch, hwants]
    simp
  · rw [Proxy.strategy, hdispatch, hwants]
    simp

/-- A proxy that is routed by contracts has some. -/
theorem Made.interfaces_ne_nil (h : f.Made type proxy c) (hcontracts : proxy.strategy = .contracts) :
    c.interfaces ≠ [] := by
  have hwants : ¬ f.wantsSubclass type = true := fun hwants => by
    rw [h.strategy_iff.mpr hwants] at hcontracts
    cases hcontracts
  intro hnone
  rw [← wantsSubclass_eq h.flags h.interfaces, Configuration.wantsSubclass, hnone] at hwants
  -- so the targets' type is a contract, and it would be exposed for want of others
  obtain ⟨own, rfl, hcontract⟩ : ∃ own, type = some own ∧ own.contract = true := by
    cases type with
    | none => simp at hwants
    | some own => exact ⟨own, rfl, by simpa using hwants⟩
  have hinterfaces := h.interfaces
  rw [hnone] at hinterfaces
  split at hinterfaces
  · simp [Option.filter, hcontract] at hinterfaces
  · rename_i hoffered
    rw [← isEmpty_eraseDups, ← hinterfaces] at hoffered
    exact hoffered rfl

end Made

end ProxyFactory

namespace Run

variable {host : Host κ σ ν} {below : Handler κ σ ν} {w v : World κ σ ν}

section Settling

variable {id : ConfigurationId} {c : Configuration κ} {m : MethodSignature}
  {target : Option TypeInfo} {methods : List MethodSignature}

/-- Settling a chain comes to an end if building it does. -/
theorem chainFor_isSome (hc : w.configurations[id]? = some c)
    (h : ((buildChain host below c m target).run w).isSome = true) :
    ((chainFor host below id m target).run w).isSome = true := by
  cases hfrozen : c.frozen with
  | false => rwa [chainFor_mutable hc hfrozen]
  | true =>
      obtain ⟨⟨built, u⟩, hbuilt⟩ := Option.isSome_iff_exists.mp h
      rw [chainFor_frozen hc hfrozen, cachedOr, get_bind_run]
      rcases (w.cache? (.ofConfiguration id)).bind (·.find? (.of m target)) with _ | chain
      · simp only
        rw [run_bind_of_eq_some hbuilt]
        rcases built with e | chain
        · rfl
        · rfl
      · rfl

/-- Settling the chains of several methods fails only where building that of one of them does, at some
later time. -/
theorem chainsFor_error (hbelow : below.Sound host) (hfrozen : c.frozen = true) {e : AopError} :
    ∀ {w : World κ σ ν}, (∃ c', w.configurations[id]? = some c' ∧ c.Later c') →
      (chainsFor host below id target methods).run w = some (.error e, v) →
      ∃ m ∈ methods, ∃ u u', w.Later u ∧
        (buildChain host below c m target).run u = some (.error e, u') := by
  induction methods with
  | nil =>
      intro w _ h
      cases h
  | cons m rest ih =>
      intro w ⟨c', hc', hlater⟩ h
      obtain ⟨settled, u, hsettled, h⟩ := run_bind_eq_some.mp h
      rcases settled with e' | chain
      · cases h
        have hfailed := chainFor_error hc' hsettled
        rw [hlater.buildChain_eq hfrozen] at hfailed
        exact ⟨m, List.mem_cons_self, w, v, .refl w, hfailed⟩
      · obtain ⟨others, x, hothers, h⟩ := run_bind_eq_some.mp h
        rcases others with e' | chains
        · cases h
          have hbetween : w.Later u :=
            Sound.later (chainFor_sound hbelow (fun _ _ => trivial) id m target) hsettled
          obtain ⟨c'', hc'', hlater'⟩ := hbetween.configurations id c' hc'
          obtain ⟨m', hm', y, y', hy, hfailed⟩ := ih ⟨c'', hc'', hlater.trans hlater'⟩ hothers
          exact ⟨m', List.mem_cons_of_mem m hm', y, y', hbetween.trans hy, hfailed⟩
        · cases h

/-- Settling the chains of several methods comes to an end if building each of them does. -/
theorem chainsFor_isSome (hbelow : below.Sound host) (hfrozen : c.frozen = true) :
    ∀ {w : World κ σ ν}, (∃ c', w.configurations[id]? = some c' ∧ c.Later c') →
      (∀ m ∈ methods, ∀ u, w.Later u →
        ((buildChain host below c m target).run u).isSome = true) →
      ((chainsFor host below id target methods).run w).isSome = true := by
  induction methods with
  | nil => exact fun _ _ => rfl
  | cons m rest ih =>
      intro w ⟨c', hc', hlater⟩ hbuilds
      have hbuilt := hbuilds m List.mem_cons_self w (.refl w)
      rw [← hlater.buildChain_eq hfrozen] at hbuilt
      obtain ⟨⟨settled, u⟩, hsettled⟩ :=
        Option.isSome_iff_exists.mp (chainFor_isSome hc' hbuilt)
      have hbetween : w.Later u :=
        Sound.later (chainFor_sound hbelow (fun _ _ => trivial) id m target) hsettled
      obtain ⟨c'', hc'', hlater'⟩ := hbetween.configurations id c' hc'
      have hothers := ih ⟨c'', hc'', hlater.trans hlater'⟩ fun m' hm' y hy =>
        hbuilds m' (List.mem_cons_of_mem m hm') y (hbetween.trans hy)
      obtain ⟨⟨others, x⟩, hothers⟩ := Option.isSome_iff_exists.mp hothers
      rw [chainsFor, run_bind_of_eq_some hsettled]
      rcases settled with e | chain
      · rfl
      · simp only
        rw [run_bind_of_eq_some hothers]
        rcases others with e | chains
        · rfl
        · rfl

/-- A dispatcher for a type, once the chains of the declared methods are settled. -/
def dispatcherWith (own : TypeInfo) :
    Except AopError (List (MethodSignature × Chain κ)) → Run κ σ ν (Except AopError DispatcherId)
  | .error e => return .error e
  | .ok chains => do
    log ⟨.debug, "Precomputed " ++ toString (chainsByKey chains).length
      ++ " fixed chain(s) for subclass proxy of " ++ own.name, []⟩
    return .ok (← addDispatcher ⟨own, chainsByKey chains, []⟩)

/-- Over a static source, the dispatcher of a frozen configuration settles the chains of all declared
methods first. -/
theorem newDispatcher_settles (hc : w.configurations[id]? = some c) {source : Source κ}
    (hsource : w.sources[c.source]? = some source) (hfrozen : c.frozen = true)
    (hstatic : source.isStatic = true) (own : TypeInfo) :
    (newDispatcher host below id own).run w =
      (chainsFor host below id source.type c.methods >>= dispatcherWith own).run w := by
  have hprecompute : (precompute host below id).run w =
      (chainsFor host below id source.type c.methods).run w := by
    rw [precompute, get_bind_run]
    simp only [hc, hfrozen, if_true, hsource]
    rfl
  rw [newDispatcher, get_bind_run]
  simp only [hc, hfrozen, hsource, hstatic, Option.map_some, Option.getD_some, Bool.and_self,
    if_true]
  rw [StateT.run_bind, hprecompute, StateT.run_bind]
  rfl

/-- Any other dispatcher is made at once. -/
theorem newDispatcher_idle (host : Host κ σ ν) (below : Handler κ σ ν)
    (hc : w.configurations[id]? = some c) {source : Source κ}
    (hsource : w.sources[c.source]? = some source)
    (hidle : ¬ (c.frozen = true ∧ source.isStatic = true)) (own : TypeInfo) :
    ∃ d u, (newDispatcher host below id own).run w = some (.ok d, u) := by
  rw [newDispatcher, get_bind_run]
  simp only [hc, hsource, Option.map_some, Option.getD_some]
  rw [if_neg (by simpa using hidle)]
  exact ⟨_, _, rfl⟩

theorem dispatcherWith_error {own : TypeInfo}
    {settled : Except AopError (List (MethodSignature × Chain κ))} {e : AopError}
    (h : (dispatcherWith own settled).run w = some (.error e, v)) : settled = .error e ∧ v = w := by
  rcases settled with e' | chains
  · cases h
    exact ⟨rfl, rfl⟩
  · cases h

theorem dispatcherWith_isSome (own : TypeInfo)
    (settled : Except AopError (List (MethodSignature × Chain κ))) (w : World κ σ ν) :
    ((dispatcherWith own settled).run w).isSome = true := by
  rcases settled with e | chains
  · rfl
  · rfl

end Settling

section Choosing

variable {id : ConfigurationId} {c c₀ : Configuration κ} {source : Source κ}

/-- Choosing the routing fails for want of a type, or where settling a chain does. -/
theorem chooseDispatch_error (hbelow : below.Sound host) (hc : w.configurations[id]? = some c₀)
    (hsource : w.sources[c₀.source]? = some source) {e : AopError}
    (h : (chooseDispatch host below id c source.type).run w = some (.error e, v)) :
    c.wantsSubclass source.type = true ∧
      (source.type = none ∧ e = ProxyFactory.untyped ∨
        (c₀.frozen = true ∧ source.isStatic = true) ∧ ∃ m ∈ c₀.methods, ∃ u u', w.Later u ∧
          (buildChain host below c₀ m source.type).run u = some (.error e, u')) := by
  simp only [chooseDispatch] at h
  split at h
  · rename_i hwants
    refine ⟨hwants, ?_⟩
    rcases htype : source.type with _ | own
    · rw [htype] at h
      cases h
      exact .inl ⟨rfl, rfl⟩
    · rw [htype] at h
      obtain ⟨made, u, hmade, h⟩ := run_bind_eq_some.mp h
      rcases made with e' | d
      · cases h
        by_cases hearly : c₀.frozen = true ∧ source.isStatic = true
        · rw [newDispatcher_settles hc hsource hearly.1 hearly.2] at hmade
          obtain ⟨settled, y, hsettled, hmade⟩ := run_bind_eq_some.mp hmade
          obtain ⟨rfl, rfl⟩ := dispatcherWith_error hmade
          rw [← htype]
          exact .inr ⟨hearly, chainsFor_error hbelow hearly.1 ⟨c₀, hc, .refl c₀⟩ hsettled⟩
        · obtain ⟨d, y, hidle⟩ := newDispatcher_idle host below hc hsource hearly own
          rw [hidle] at hmade
          cases hmade
      · cases h
  · cases h

theorem chooseDispatch_untyped (hwants : c.wantsSubclass none = true) (w : World κ σ ν) :
    (chooseDispatch host below id c none).run w = some (.error ProxyFactory.untyped, w) := by
  simp only [chooseDispatch, if_pos hwants]
  rfl

/-- Choosing the routing comes to an end if the building of those chains does that have to be settled. -/
theorem chooseDispatch_isSome (hbelow : below.Sound host) (hc : w.configurations[id]? = some c₀)
    (hsource : w.sources[c₀.source]? = some source)
    (hbuilds : c.wantsSubclass source.type = true → c₀.frozen = true → source.isStatic = true →
      ∀ m ∈ c₀.methods, ∀ u, w.Later u →
        ((buildChain host below c₀ m source.type).run u).isSome = true) :
    ((chooseDispatch host below id c source.type).run w).isSome = true := by
  unfold chooseDispatch
  split
  · rename_i hwants
    rcases htype : source.type with _ | own
    · rfl
    · have hmade : ((newDispatcher host below id own).run w).isSome = true := by
        by_cases hearly : c₀.frozen = true ∧ source.isStatic = true
        · rw [newDispatcher_settles hc hsource hearly.1 hearly.2]
          have hsettled := chainsFor_isSome hbelow hearly.1 ⟨c₀, hc, .refl c₀⟩
            (hbuilds hwants hearly.1 hearly.2)
          obtain ⟨⟨settled, u⟩, hsettled⟩ := Option.isSome_iff_exists.mp hsettled
          rw [run_bind_of_eq_some hsettled]
          exact dispatcherWith_isSome own settled u
        · obtain ⟨d, u, hidle⟩ := newDispatcher_idle host below hc hsource hearly own
          rw [hidle]
          rfl
      obtain ⟨⟨made, u⟩, hmade⟩ := Option.isSome_iff_exists.mp hmade
      simp only
      rw [run_bind_of_eq_some hmade]
      rcases made with e | d
      · rfl
      · rfl
  · rfl

theorem place_error {e : AopError}
    (h : (place host below id c source).run w = some (.error e, v)) :
    (chooseDispatch host below id c source.type).run w = some (.error e, v) := by
  obtain ⟨chosen, u, hchosen, h⟩ := run_bind_eq_some.mp h
  rcases chosen with e' | chosen
  · cases h
    exact hchosen
  · cases h

theorem place_of_error {e : AopError}
    (h : (chooseDispatch host below id c source.type).run w = some (.error e, v)) :
    (place host below id c source).run w = some (.error e, v) := by
  rw [place, run_bind_of_eq_some h]
  rfl

theorem place_isSome
    (h : ((chooseDispatch host below id c source.type).run w).isSome = true) :
    ((place host below id c source).run w).isSome = true := by
  obtain ⟨⟨chosen, u⟩, hchosen⟩ := Option.isSome_iff_exists.mp h
  rw [place, run_bind_of_eq_some hchosen]
  rcases chosen with e | chosen
  · rfl
  · rfl

end Choosing

section Making

variable {f : ProxyFactory κ} {id : SourceId} {source : Source κ}

/-- Making a proxy goes by the source that its factory draws from. -/
theorem makeProxy_run (host : Host κ σ ν) (below : Handler κ σ ν) (hdraws : f.DrawsFrom w id source) :
    ∃ u, w.Later u ∧ u.sources[id]? = some source ∧
      (makeProxy host below f).run w = (makeProxyOver host below f id).run u := by
  rw [ProxyFactory.DrawsFrom] at hdraws
  rcases hf : f.source with _ | given
  · rw [hf] at hdraws
    obtain ⟨rfl, rfl⟩ := hdraws
    have hstep : w.Step host (fun _ => True)
        { w with sources := w.sources.push (.empty none) } := .madeSource
    refine ⟨_, hstep.leads.later, Array.getElem?_push_size, ?_⟩
    rw [makeProxy_of_none hf]
    rfl
  · rw [hf] at hdraws
    obtain ⟨rfl, hsource⟩ := hdraws
    exact ⟨w, .refl w, hsource, by rw [makeProxy_of_source hf]⟩

/-- Without advisors and targets there is no proxy. -/
theorem makeProxy_unspecified (host : Host κ σ ν) (below : Handler κ σ ν)
    (hdraws : f.DrawsFrom w id source) (hnothing : f.advisors = [] ∧ source.isEmpty = true) :
    ∃ v, (makeProxy host below f).run w = some (.error ProxyFactory.unspecified, v) := by
  obtain ⟨x, _, hsource, hrun⟩ := makeProxy_run host below hdraws
  refine ⟨x, ?_⟩
  rw [hrun, makeProxyOver, get_bind_run]
  simp only [hsource, makeProxyFor_eq]
  rw [if_pos (by simp [hnothing])]
  rfl

/-- Otherwise its configuration is put together, and the proxy is placed. -/
theorem makeProxy_placed (host : Host κ σ ν) (below : Handler κ σ ν)
    (hdraws : f.DrawsFrom w id source) (hsome : ¬ (f.advisors = [] ∧ source.isEmpty = true)) :
    ∃ u configuration, w.Later u ∧
      u.configurations[configuration]? = some (f.completed id source.type) ∧
      u.sources[(f.completed id source.type).source]? = some source ∧
      (makeProxy host below f).run w =
        (place host below configuration (f.assembled id source.type) source).run u := by
  obtain ⟨x, hx, hsource, hrun⟩ := makeProxy_run host below hdraws
  obtain ⟨u, hprepare, hgains⟩ := prepare_gains f id source.type x
  have hprepared : SoundAt host (fun _ => True) (prepare f id source.type) x :=
    prepare_soundAt f hsource
  refine ⟨u, x.configurations.size, hx.trans (hprepared.leads hprepare).later, hgains.found, ?_, ?_⟩
  · rw [f.completed_eq, hgains.sources]
    exact hsource
  · rw [hrun, makeProxyOver, get_bind_run]
    simp only [hsource, makeProxyFor_eq]
    rw [if_neg (by simpa using hsome), run_bind_of_eq_some hprepare]

/-- There is no subclass of an unknown type. -/
theorem makeProxy_untyped (host : Host κ σ ν) (below : Handler κ σ ν)
    (hdraws : f.DrawsFrom w id source) (hsome : ¬ (f.advisors = [] ∧ source.isEmpty = true))
    (hwants : f.wantsSubclass source.type = true) (hunknown : source.type = none) :
    ∃ v, (makeProxy host below f).run w = some (.error ProxyFactory.untyped, v) := by
  obtain ⟨u, configuration, _, _, _, hplace⟩ := makeProxy_placed host below hdraws hsome
  refine ⟨u, hplace.trans (place_of_error ?_)⟩
  rw [hunknown] at hwants ⊢
  exact chooseDispatch_untyped ((f.wantsSubclass_assembled id none).trans hwants) u

/-- What may go wrong when a factory makes a proxy. -/
inductive Failing (host : Host κ σ ν) (below : Handler κ σ ν) (f : ProxyFactory κ) (w : World κ σ ν)
    (id : SourceId) (source : Source κ) : AopError → Prop where
  /-- There is nothing to make a proxy of. -/
  | unspecified (bare : f.advisors = []) (empty : source.isEmpty = true) :
      Failing host below f w id source ProxyFactory.unspecified
  /-- There is no type to make a subclass of. -/
  | untyped (wants : f.wantsSubclass source.type = true) (unknown : source.type = none) :
      Failing host below f w id source ProxyFactory.untyped
  /-- The chain of a declared method was not built. -/
  | unbuilt (wants : f.wantsSubclass source.type = true) (frozen : f.flags.frozen = true)
      (still : source.isStatic = true) {m : MethodSignature} (declared : m ∈ f.methods)
      {u u' : World κ σ ν} (later : w.Later u) {e : AopError}
      (failed : (buildChain host below (f.completed id source.type) m source.type).run u =
        some (.error e, u')) : Failing host below f w id source e

/-- Nothing else goes wrong. -/
theorem makeProxy_failing (hbelow : below.Sound host) (hdraws : f.DrawsFrom w id source)
    {e : AopError} (h : (makeProxy host below f).run w = some (.error e, v)) :
    Failing host below f w id source e := by
  by_cases hnothing : f.advisors = [] ∧ source.isEmpty = true
  · obtain ⟨x, hdone⟩ := makeProxy_unspecified host below hdraws hnothing
    rw [hdone] at h
    cases h
    exact .unspecified hnothing.1 hnothing.2
  · obtain ⟨u, configuration, hu, hc, hsource, hplace⟩ :=
      makeProxy_placed host below hdraws hnothing
    rw [hplace] at h
    obtain ⟨hwants, hfailed⟩ := chooseDispatch_error hbelow hc hsource (place_error h)
    rw [f.wantsSubclass_assembled id source.type] at hwants
    rcases hfailed with ⟨hunknown, rfl⟩ | ⟨⟨hfrozen, hstatic⟩, m, hm, y, y', hy, hbuild⟩
    · exact .untyped hwants hunknown
    · rw [f.completed_eq id source.type] at hfrozen hm
      exact .unbuilt hwants hfrozen hstatic hm (hu.trans hy) hbuild

/-- By a registry, every chain is built in one way or another. -/
theorem buildChain_isSome_of_registry (host : Host κ σ ν) (below : Handler κ σ ν)
    {c : Configuration κ} {registry : AdapterRegistry κ}
    (hstandard : c.chainFactory = .standard registry) (m : MethodSignature)
    (target : Option TypeInfo) (w : World κ σ ν) :
    ((buildChain host below c m target).run w).isSome = true := by
  obtain ⟨questions, _, hrun⟩ :=
    buildFrom_run registry c.advisors c.flags.preFiltered m target rfl rfl w
  rw [buildChain, hstandard]
  simp only [hrun, Option.isSome_some]

/-- Only user code that builds chains can keep a factory from coming to an end. -/
theorem makeProxy_isSome (hbelow : below.Sound host) (hdraws : f.DrawsFrom w id source)
    (hbuilds : ∀ code, f.chainFactory = some code → f.wantsSubclass source.type = true →
      f.flags.frozen = true → source.isStatic = true → ∀ m ∈ f.methods, ∀ u, w.Later u →
        ((buildChain host below (f.completed id source.type) m source.type).run u).isSome = true) :
    ((makeProxy host below f).run w).isSome = true := by
  by_cases hnothing : f.advisors = [] ∧ source.isEmpty = true
  · obtain ⟨x, hdone⟩ := makeProxy_unspecified host below hdraws hnothing
    rw [hdone]
    rfl
  · obtain ⟨u, configuration, hu, hc, hsource, hplace⟩ :=
      makeProxy_placed host below hdraws hnothing
    rw [hplace]
    refine place_isSome (chooseDispatch_isSome hbelow hc hsource ?_)
    rw [f.wantsSubclass_assembled id source.type]
    intro hwants hfrozen hstatic m hm y hy
    rcases hfactory : f.chainFactory with _ | code
    · have hstandard : (f.completed id source.type).chainFactory =
          .standard (f.registry.getD .standard) := by
        rw [f.completed_eq, ProxyFactory.building, hfactory]
      exact buildChain_isSome_of_registry host below hstandard m source.type y
    · rw [f.completed_eq id source.type] at hfrozen hm
      exact hbuilds code hfactory hwants hfrozen hstatic m hm y (hu.trans hy)

/-- What comes of a factory that draws its targets from a source.  Without advisors and targets it
fails, and so it does if a subclass is wanted and the type of the targets is unknown.  The only other
failure is that of building the chain of a declared method, and this is for frozen subclass proxies
over static sources; only user code that builds chains can keep a factory from coming to an end.
Otherwise there is a proxy, a subclass exactly if the targets' type is no contract and either a flag
says so or no contract would be exposed, and a proxy that is routed by contracts exposes some.  Its
advisors are the given ones in order, or those of them that can apply to the type of the targets if the
factory is to filter them and the type is known; its contracts are the given ones, followed by those
that its advisors introduce, each once, or else a contract that is the targets' type.  It is frozen if
its flags say so. -/
theorem factory_outcomes (host : Host κ σ ν) (depth : Nat) (f : ProxyFactory κ) (w : World κ σ ν)
    (id : SourceId) (source : Source κ) (hdraws : f.DrawsFrom w id source) :
    (f.advisors = [] ∧ source.isEmpty = true →
      ∃ v, (makeProxy host (answer host depth) f).run w =
        some (.error ProxyFactory.unspecified, v)) ∧
    (¬ (f.advisors = [] ∧ source.isEmpty = true) → f.wantsSubclass source.type = true →
      source.type = none →
      ∃ v, (makeProxy host (answer host depth) f).run w = some (.error ProxyFactory.untyped, v)) ∧
    (∀ e v, (makeProxy host (answer host depth) f).run w = some (.error e, v) →
      Failing host (answer host depth) f w id source e) ∧
    ((∀ code, f.chainFactory = some code → f.wantsSubclass source.type = true →
        f.flags.frozen = true → source.isStatic = true → ∀ m ∈ f.methods, ∀ u, w.Later u →
          ((buildChain host (answer host depth) (f.completed id source.type) m
            source.type).run u).isSome = true) →
      ∃ made v, (makeProxy host (answer host depth) f).run w = some (made, v)) ∧
    ∀ p v, (makeProxy host (answer host depth) f).run w = some (.ok p, v) →
      ∃ proxy c change, v.parts? p = some (proxy, c, source.mapPool change) ∧
        (proxy.strategy = .subclass ↔
          (∀ own, source.type = some own → own.contract = false) ∧
            (f.flags.proxyTargetClass = true ∨ f.flags.optimize = true ∨
              f.interfaces ++ c.advisors.flatMap (·.interfaces) = [])) ∧
        (proxy.strategy = .contracts → c.interfaces ≠ []) ∧
        (f.preFilter = false ∨ source.type = none → c.advisors = f.advisors) ∧
        (∀ own, f.preFilter = true → source.type = some own → c.advisors =
          f.advisors.filter fun a =>
            (a.canApply own f.methods (f.advisors.any (·.introducesTo own))).answer) ∧
        c.interfaces =
          (if (f.interfaces ++ c.advisors.flatMap (·.interfaces)).isEmpty then
            (source.type.filter (·.contract)).toList
          else (f.interfaces ++ c.advisors.flatMap (·.interfaces)).eraseDups) ∧
        c.frozen = f.flags.frozen := by
  have hbelow := answer_sound host depth
  refine ⟨makeProxy_unspecified host _ hdraws, makeProxy_untyped host _ hdraws,
    fun e v h => makeProxy_failing hbelow hdraws h, fun hbuilds => ?_, fun p v h => ?_⟩
  · obtain ⟨⟨made, v⟩, hended⟩ :=
      Option.isSome_iff_exists.mp (makeProxy_isSome hbelow hdraws hbuilds)
    exact ⟨made, v, hended⟩
  · obtain ⟨x, _, hsource, hrun⟩ := makeProxy_run host (answer host depth) hdraws
    rw [hrun] at h
    obtain ⟨proxy, c, change, hparts, hmade⟩ := makeProxyOver_made hbelow hsource h
    have hoffered : f.offered source.type = f.interfaces ++ c.advisors.flatMap (·.interfaces) := by
      rw [hmade.advisors, ProxyFactory.offered]
    have hstrategy := hmade.strategy_iff.trans ProxyFactory.wantsSubclass_iff
    have hinterfaces := hmade.interfaces
    rw [hoffered] at hstrategy hinterfaces
    refine ⟨proxy, c, change, hparts, hstrategy, hmade.interfaces_ne_nil, fun hplain => ?_,
      fun own hfilter htype => ?_, hinterfaces, hmade.frozen⟩
    · exact hmade.advisors.trans (ProxyFactory.kept_of_unfiltered hplain)
    · rw [hmade.advisors, htype]
      exact ProxyFactory.kept_of_filtered hfilter

section Archive

def archiveType : TypeInfo := ⟨7, "Archive", [], false, false, false⟩

/-- Advice that only a registry with adapters can use. -/
def archiveAdvice (name : String) : Advice Unit := ⟨name, .before ()⟩

/-- The first advisor is for others; the proxy's chains are settled at once. -/
def archiveFactory (registry : AdapterRegistry Unit) : ProxyFactory Unit :=
  { flags := { optimize := true, frozen := true }
    source := some 0
    advisors := [.pointcut (Pointcut.always.withFilter (.named (.ofText .simple "Till")))
      (archiveAdvice "elsewhere"), .unconditional (archiveAdvice "here")]
    methods := [{ declaringType := archiveType, name := "file" }]
    registry := some registry
    preFilter := true }

def archiveSetup : Code Unit Unit Unit Unit := do
  let target ← Code.ask (.newTarget archiveType ())
  let _ ← Code.ask (.newSource (.singleton target archiveType))

def archiveWorld : World Unit Unit Unit := worldAfter Host.idle 1 archiveSetup (.initial ())

/-- A frozen subclass with one of the two advisors is made, or else the chain of the declared method is
not built. -/
theorem factory_outcomes_archive :
    (∀ registry, (archiveFactory registry).DrawsFrom archiveWorld 0 (.singleton 0 archiveType)) ∧
    (∃ p v proxy c source,
      (makeProxy Host.idle (answer Host.idle 1) (archiveFactory .standard)).run archiveWorld =
        some (.ok p, v) ∧
      v.parts? p = some (proxy, c, source) ∧ proxy.strategy = .subclass ∧
      c.advisors.map (·.advice.name) = ["here"] ∧ c.interfaces = [] ∧ c.frozen = true) ∧
    ∃ e v,
      (makeProxy Host.idle (answer Host.idle 1) (archiveFactory .empty)).run archiveWorld =
        some (.error e, v) ∧
      Failing Host.idle (answer Host.idle 1) (archiveFactory .empty) archiveWorld 0
        (.singleton 0 archiveType) e := by
  have hdraws : ∀ registry,
      (archiveFactory registry).DrawsFrom archiveWorld 0 (.singleton 0 archiveType) :=
    fun _ => ⟨rfl, by rfl⟩
  refine ⟨hdraws, ?_, ?_⟩
  · obtain ⟨_, _, _, _, hmade⟩ := factory_outcomes Host.idle 1 (archiveFactory .standard)
      archiveWorld 0 _ (hdraws _)
    have hrun := run_eq_leaves
      (x := makeProxy Host.idle (answer Host.idle 1) (archiveFactory .standard))
      (w := archiveWorld) (a := 0) (by decide +kernel)
    obtain ⟨proxy, c, change, hparts, hstrategy, _, _, hfiltered, hinterfaces, hfrozen⟩ :=
      hmade _ _ hrun
    have hadvisors := hfiltered archiveType rfl rfl
    refine ⟨0, _, proxy, c, _, hrun, hparts, hstrategy.mpr ?_, ?_, ?_, hfrozen⟩
    · exact ⟨fun own hown => by cases hown; rfl, .inr (.inl rfl)⟩
    · rw [hadvisors]
      decide +kernel
    · rw [hinterfaces, hadvisors]
      decide +kernel
  · obtain ⟨_, _, hfailing, hends, _⟩ := factory_outcomes Host.idle 1 (archiveFactory .empty)
      archiveWorld 0 _ (hdraws _)
    obtain ⟨made, v, hrun⟩ := hends fun _ hcustom => by cases hcustom
    have hfailed : ((makeProxy Host.idle (answer Host.idle 1) (archiveFactory .empty)).run
        archiveWorld).map (·.1.toOption) = some none := by decide +kernel
    rcases made with e | p
    · exact ⟨e, v, hrun, hfailing e v hrun⟩
    · rw [hrun] at hfailed
      cases hfailed

end Archive

end Making

end Run

end Weaving
