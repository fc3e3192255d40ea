import Weaving.Proofs.MadeProxies
import Weaving.Proofs.TwinAnswers

/-
How twins are made.  A factory makes one of them in a world, and the factory that differs in one flag
makes the other in the same world.  Until the strategy is chosen the two do the same.  The contract
proxy is then finished; the subclass proxy gets a dispatcher, for which the chains of the declared
methods are built if the configuration is frozen and its source static.
-/
namespace Weaving

variable {κ σ ν : Type}

namespace ProxyFactory

/-- The factory that differs in one flag: its proxies are to stand for the target's own type. -/
def forTargetClass (f : ProxyFactory κ) : ProxyFactory κ :=
  { f with flags := { f.flags with proxyTargetClass := true } }

/-- The configuration that a factory puts together for the targets of a source. -/
def configured (f : ProxyFactory κ) (id : SourceId) (type : TypeInfo) : Configuration κ :=
  f.configure (f.screened type).1 id (some type) (f.screened type).2
    (.standard (f.registry.getD .standard))

/-- The configuration of a proxy that was just made. -/
def established (f : ProxyFactory κ) (id : SourceId) (type : TypeInfo) : Configuration κ :=
  { f.configured id type with frozen := f.flags.frozen }

/-- Where chains are built by a registry, this is all there is to the making of a configuration. -/
theorem assembled_of_standard {f : ProxyFactory κ} (hfactory : f.chainFactory = none)
    (id : SourceId) (type : TypeInfo) : f.assembled id (some type) = f.configured id type := by
  rw [assembled, building, hfactory]
  rfl

theorem completed_of_standard {f : ProxyFactory κ} (hfactory : f.chainFactory = none)
    (id : SourceId) (type : TypeInfo) : f.completed id (some type) = f.established id type := by
  rw [completed, assembled_of_standard hfactory]
  rfl

/-- The two factories put together configurations that differ in one flag. -/
theorem configured_forTargetClass (f : ProxyFactory κ) (id : SourceId) (type : TypeInfo) :
    f.forTargetClass.configured id type = (f.configured id type).recast .empty := by
  have hscreened : f.forTargetClass.screened type =
      ({ (f.screened type).1 with proxyTargetClass := true }, (f.screened type).2) := by
    rw [screened, screened]
    cases hfilter : f.preFilter <;> simp [forTargetClass, hfilter]
  rw [configured, configured, hscreened]
  generalize f.screened type = screened
  unfold configure
  dsimp only
  split
  · split
    · rfl
    · rename_i hbare hexposing
      exact absurd hbare hexposing
  · split
    · rename_i hexposing hbare
      exact absurd hbare hexposing
    · rfl

theorem established_forTargetClass (f : ProxyFactory κ) (id : SourceId) (type : TypeInfo) :
    f.forTargetClass.established id type = (f.established id type).recast .empty := by
  rw [established, established, configured_forTargetClass]
  rfl

theorem wantsSubclass_configured (f : ProxyFactory κ) (id : SourceId) (type : TypeInfo) :
    (f.configured id type).wantsSubclass (some type) =
      (!type.contract && (f.flags.proxyTargetClass || f.flags.optimize ||
        (f.configured id type).interfaces.isEmpty)) := by
  have hflags : (f.configured id type).flags = (f.screened type).1 := by
    rw [configured, configure_eq]
  rw [Configuration.wantsSubclass, hflags, screened_flags]
  rfl

/-- Where a factory has contracts to expose some are exposed. -/
theorem interfaces_configured {f : ProxyFactory κ} (h : f.interfaces ≠ []) (id : SourceId)
    (type : TypeInfo) : (f.configured id type).interfaces ≠ [] := by
  have hoffered : (f.offered (some type)).isEmpty = false := by
    rw [offered]
    simp [h]
  -- how chains are built makes no difference to the contracts
  have hexposed := ({ f with chainFactory := none } : ProxyFactory κ).interfaces_assembled id
    (some type)
  rw [assembled_of_standard rfl] at hexposed
  change (f.configured id type).interfaces = if (f.offered (some type)).isEmpty then _ else _
    at hexposed
  rw [hexposed, hoffered, ← List.isEmpty_eq_false_iff]
  exact (isEmpty_eraseDups _).trans hoffered

/-- The twins that a factory and the one that differs in one flag make in a world. -/
def twins (f : ProxyFactory κ) (w : World κ σ ν) (id : SourceId) (type : TypeInfo)
    (advice : Advisor κ → Prop) : Twins κ where
  proxy := w.proxies.size
  configuration := w.configurations.size
  dispatcher := w.dispatchers.size
  type := type
  contracts := (f.configured id type).interfaces
  methods := f.methods
  registry := f.registry.getD .standard
  advisors := advice

theorem source_established (f : ProxyFactory κ) (id : SourceId) (type : TypeInfo) :
    (f.established id type).source = id := by
  rw [established, configured, configure_eq]

/-- The configurations of twins are akin when they are made. -/
theorem akin (f : ProxyFactory κ) (w : World κ σ ν) (id : SourceId) (type : TypeInfo)
    {advice : Advisor κ → Prop} (hadvice : ∀ a ∈ f.advisors, advice a) :
    (f.twins w id type advice).Akin f.methods (f.established id type)
      (f.forTargetClass.established id type) := by
  rw [established_forTargetClass]
  have hestablished : f.established id type =
      { f.established id type with
        methods := f.methods
        advisors := (f.screened type).2
        chainFactory := .standard (f.registry.getD .standard)
        cache := .empty } := by
    rw [established, configured, configure_eq]
  rw [hestablished]
  refine ⟨rfl, rfl, rfl, fun a ha => hadvice a (mem_screened ha), fun _ key chain hfound => ?_,
    fun _ key chain hfound => ?_⟩
  · cases hfound
  · cases hfound

end ProxyFactory

/-- Two worlds that have got one more configuration each agree in everything else. -/
theorem World.Gains.agrees {w u u' : World κ σ ν} {c c' : Configuration κ} (hu : w.Gains u c)
    (hu' : w.Gains u' c') : u.Agrees u' := by
  have hdoings : u'.doings = u.doings := hu'.quiet.doings.trans hu.quiet.doings.symm
  rw [hu.quiet.same, hu'.quiet.same] at hdoings ⊢
  exact ⟨rfl, rfl, rfl, rfl, rfl, rfl, hdoings⟩

namespace Run

variable {host : Host κ σ ν} {below : Handler κ σ ν} {f : ProxyFactory κ} {id : SourceId}
  {type : TypeInfo} {w u v : World κ σ ν}

section Dispatching

variable {t : Twins κ} {c c' : Configuration κ}

/-- Asking for the chains of declared methods makes the second twin know some of them. -/
theorem chainsFor_gains (host : Host κ σ ν) (below : Handler κ σ ν)
    {methods : List MethodSignature} (hmethods : ∀ m ∈ methods, m ∈ t.methods) :
    ∀ {u : World κ σ ν} {c' : Configuration κ}, w.Gains u c' → t.Akin t.methods c c' →
      ∃ found v c'', (chainsFor host below w.configurations.size (some t.type) methods).run u =
          some (found, v) ∧
        w.Gains v c'' ∧ t.Akin t.methods c c'' := by
  induction methods with
  | nil => exact fun {u c'} hgains hakin => ⟨_, u, c', rfl, hgains, hakin⟩
  | cons m rest ih =>
      intro u c' hgains hakin
      obtain ⟨v, hchain, hquiet⟩ := chainFor_quiet host below hgains.found hakin.standard' m
        (some t.type)
      have hgains' := (hgains.change (c'.settling t.registry m (some t.type))).more hquiet
      have hakin' := hakin.settling_second (hmethods m List.mem_cons_self)
      rw [chainsFor, run_bind_of_eq_some hchain]
      rcases c'.settled t.registry m (some t.type) with e | chain
      · exact ⟨_, v, _, rfl, hgains', hakin'⟩
      · obtain ⟨found, v', c'', hrest, hgains'', hakin''⟩ :=
          ih (fun other hother => hmethods other (List.mem_cons_of_mem m hother)) hgains' hakin'
        simp only
        rw [run_bind_of_eq_some hrest]
        rcases found with e | later
        · exact ⟨_, v', c'', rfl, hgains'', hakin''⟩
        · exact ⟨_, v', c'', rfl, hgains'', hakin''⟩

/-- A new dispatcher for the second twin is put after those that were there. -/
theorem newDispatcher_adds {source : Source κ} (hgains : w.Gains u c')
    (hakin : t.Akin t.methods c c') (hsource : w.sources[c.source]? = some source)
    (htype : source.type = some t.type) {dispatcher : DispatcherId}
    (h : (newDispatcher host below w.configurations.size t.type).run u =
      some (.ok dispatcher, v)) :
    ∃ v₁ c'' d, v = { v₁ with dispatchers := v₁.dispatchers.push d } ∧
      dispatcher = v₁.dispatchers.size ∧ w.Gains v₁ c'' ∧ t.Akin t.methods c c'' ∧
      d.callbacks = [] := by
  rw [newDispatcher, get_bind_run] at h
  simp only [hgains.found] at h
  split at h
  · rename_i hsettled
    have hfrozen : c'.frozen = true := (Bool.and_eq_true _ _ ▸ hsettled).1
    have hmethods : c'.methods = t.methods := by
      rw [hakin.same]
      exact hakin.methods
    have hfound : u.sources[c'.source]? = some source := by
      rw [hgains.sources, hakin.source]
      exact hsource
    obtain ⟨found, v₁, c₁, hchains, hgains₁, hakin₁⟩ :=
      chainsFor_gains host below (fun _ hm => hm) hgains hakin
    have hprecompute : (precompute host below w.configurations.size).run u = some (found, v₁) := by
      rw [precompute, get_bind_run]
      simp only [hgains.found, hfrozen, hfound, htype, if_true, Option.bind_some, hmethods]
      exact hchains
    rw [run_bind_of_eq_some hprecompute] at h
    rcases found with e | chains
    · cases h
    · cases h
      exact ⟨_, c₁, ⟨t.type, chainsByKey chains, []⟩, rfl, rfl,
        hgains₁.more (.record (e := .logged _) rfl), hakin₁, rfl⟩
  · cases h
    exact ⟨u, c', ⟨t.type, [], []⟩, rfl, rfl, hgains, hakin, rfl⟩

/-- A new dispatcher for the second twin serves it, and nothing else has changed but what the twin
knows beforehand. -/
theorem newDispatcher_gains (hbelow : below.Sound host) {source : Source κ}
    (hgains : w.Gains u c') (hakin : t.Akin t.methods c c')
    (hsource : w.sources[c.source]? = some source) (htype : source.type = some t.type)
    {dispatcher : DispatcherId}
    (h : (newDispatcher host below w.configurations.size t.type).run u =
      some (.ok dispatcher, v)) :
    ∃ v₁ c'' d, v = { v₁ with dispatchers := v₁.dispatchers.push d } ∧
      dispatcher = w.dispatchers.size ∧ w.Gains v₁ c'' ∧ t.Akin t.methods c c'' ∧
      d.Serves c'' source := by
  have hfound : u.sources[c'.source]? = some source := by
    rw [hgains.sources, hakin.source]
    exact hsource
  obtain ⟨own, c₁, hown, hc₁, htarget, hfixed⟩ :=
    newDispatcher_fits hbelow hgains.found hfound htype h
  obtain ⟨v₁, c'', d, rfl, rfl, hgains', hakin', hfresh⟩ :=
    newDispatcher_adds hgains hakin hsource htype h
  obtain rfl : d = own := Option.some.inj (Array.getElem?_push_size.symm.trans hown)
  obtain rfl : c'' = c₁ := Option.some.inj (hgains'.found.symm.trans hc₁)
  refine ⟨v₁, c'', d, rfl, by rw [hgains'.dispatchers], hgains', hakin', ⟨?_, ?_⟩⟩
  · exact ⟨htarget.symm ▸ htype, htarget.symm ▸ hfixed⟩
  · intro m callback hcallback
    rw [SubclassDispatcher.callback?, hfresh] at hcallback
    cases hcallback

end Dispatching

end Run

namespace Twins

variable {t : Twins κ} {w u v : World κ σ ν} {c c' : Configuration κ}

/-- The proxies of a world, and the twins put after them. -/
theorem Proxied.made (hfits : w.WellFormed) (hproxy : t.proxy = w.proxies.size)
    (hconfiguration : t.configuration = w.configurations.size)
    (hdispatcher : t.dispatcher = w.dispatchers.size) (d : ContractDispatcher) :
    t.Proxied (w.proxies.push ⟨t.configuration, .contracts d, t.contracts⟩)
      (w.proxies.push ⟨t.configuration, .subclass t.dispatcher, t.type :: t.contracts⟩) := by
  -- a proxy that was there before goes by parts that were there before
  have hearlier : ∀ (p : ProxyId) (proxy : Proxy), w.proxies[p]? = some proxy →
      proxy.configuration ≠ t.configuration ∧ t.proxyAcross proxy = proxy := by
    intro p proxy hfound
    obtain ⟨known, source, hknown, _, hparts⟩ := hfits.fits p proxy hfound
    refine ⟨?_, ?_⟩
    · rw [hconfiguration]
      exact Nat.ne_of_lt (Array.getElem?_eq_some_iff.mp hknown).1
    · obtain ⟨configuration, dispatch, types⟩ := proxy
      cases dispatch with
      | contracts _ => rfl
      | subclass own =>
          obtain ⟨_, hown, _⟩ := hparts
          have hlt : own < t.dispatcher := hdispatcher ▸ (Array.getElem?_eq_some_iff.mp hown).1
          rw [proxyAcross, dispatchAcross, across_of_lt hlt]
  refine ⟨?_, ⟨d, ?_⟩, ?_, fun p hp => ?_, fun p hp => ?_, fun p proxy hp hfound => ?_⟩
  · rw [Array.size_push, Array.size_push]
  · rw [hproxy]
    exact Array.getElem?_push_size
  · rw [hproxy]
    exact Array.getElem?_push_size
  · have hne : p ≠ w.proxies.size := hproxy ▸ Nat.ne_of_lt hp
    rw [Array.getElem?_push, Array.getElem?_push, if_neg hne, if_neg hne]
  · have hne : p ≠ w.proxies.size := hproxy ▸ hp
    rw [Array.getElem?_push, Array.getElem?_push, if_neg hne, if_neg hne]
    rcases hfound : w.proxies[p]? with _ | proxy
    · rfl
    · rw [Option.map_some, (hearlier p proxy hfound).2]
  · have hne : p ≠ w.proxies.size := hproxy ▸ hp
    rw [Array.getElem?_push, if_neg hne] at hfound
    exact (hearlier p proxy hfound).1

/-- The dispatchers of a world, and those and that of the second twin. -/
theorem Dispatched.made {ds : Array (SubclassDispatcher κ)} (h : t.dispatcher = ds.size)
    (d : SubclassDispatcher κ) : t.Dispatched ds (ds.push d) := by
  refine ⟨Nat.le_of_eq h, Array.size_push d, fun other => ?_⟩
  rcases Nat.lt_or_ge other t.dispatcher with hlt | hle
  · rw [across_of_lt hlt, Array.getElem?_push, if_neg (Nat.ne_of_lt (h ▸ hlt))]
  · have hbeyond : ds.size ≤ other := h ▸ hle
    rw [across_of_le hle, Array.getElem?_eq_none hbeyond,
      Array.getElem?_eq_none (by rw [Array.size_push]; exact Nat.succ_le_succ hbeyond)]

/-- Worlds that have got the twins, each its own, are side by side. -/
theorem Beside.made (hfits : w.WellFormed) (hproxy : t.proxy = w.proxies.size)
    (hconfiguration : t.configuration = w.configurations.size)
    (hdispatcher : t.dispatcher = w.dispatchers.size) (hu : w.Gains u c) (hv : w.Gains v c')
    (akin : t.Akin t.methods c c') {source : Source κ}
    (hsource : w.sources[c.source]? = some source) (htype : source.type = some t.type)
    {d : SubclassDispatcher κ} (hserves : d.Serves c' source) (dispatch : ContractDispatcher) :
    t.Beside t.methods
      { u with proxies := u.proxies.push ⟨t.configuration, .contracts dispatch, t.contracts⟩ }
      { v with
        dispatchers := v.dispatchers.push d
        proxies := v.proxies.push
          ⟨t.configuration, .subclass t.dispatcher, t.type :: t.contracts⟩ } := by
  obtain ⟨htargets, hsources, hcaches, hcurrent, hcalls, hmemory, hdoings⟩ := hu.agrees hv
  refine ⟨⟨htargets, hsources, hcaches, hcurrent, hcalls, hmemory, hdoings⟩, ?_, fun id hid => ?_,
    ?_, ?_, c, c', source, d, ?_, ?_, akin, ?_, htype, ?_, hserves⟩
  · exact hv.size.trans hu.size.symm
  · rw [hconfiguration] at hid
    exact (hv.others id hid).trans (hu.others id hid).symm
  · change t.Dispatched u.dispatchers (v.dispatchers.push d)
    rw [hu.dispatchers, hv.dispatchers]
    exact .made hdispatcher d
  · change t.Proxied (u.proxies.push _) (v.proxies.push _)
    rw [hu.proxies, hv.proxies]
    exact .made hfits hproxy hconfiguration hdispatcher dispatch
  · rw [hconfiguration]
    exact hu.found
  · rw [hconfiguration]
    exact hv.found
  · change u.sources[c.source]? = _
    rw [hu.sources]
    exact hsource
  · change (v.dispatchers.push d)[t.dispatcher]? = _
    rw [hdispatcher, hv.dispatchers]
    exact Array.getElem?_push_size

end Twins

namespace Run

section Making

variable {host : Host κ σ ν} {below : Handler κ σ ν} {f : ProxyFactory κ} {id : SourceId}
  {type : TypeInfo} {source : Source κ} {w u v : World κ σ ν} {p q : ProxyId}

/-- A factory and the one that differs in one flag make twins. -/
theorem makeProxy_twins (hbelow : below.Sound host) (hw : w.WellFormed) (hf : f.source = some id)
    (hsource : w.sources[id]? = some source) (htype : source.type = some type)
    (hclass : type.contract = false) (hexposes : (f.configured id type).interfaces ≠ [])
    (hfactory : f.chainFactory = none) (hplain : f.flags.proxyTargetClass = false)
    (hslow : f.flags.optimize = false) {advice : Advisor κ → Prop}
    (hadvice : ∀ a ∈ f.advisors, advice a)
    (hu : (makeProxy host below f).run w = some (.ok p, u))
    (hv : (makeProxy host below f.forTargetClass).run w = some (.ok q, v)) :
    p = w.proxies.size ∧ q = w.proxies.size ∧
      (f.twins w id type advice).Beside f.methods u v := by
  have hexposed : (f.configured id type).interfaces.isEmpty = false :=
    List.isEmpty_eq_false_iff.mpr hexposes
  have hcontracts : (f.configured id type).wantsSubclass (some type) = false := by
    rw [ProxyFactory.wantsSubclass_configured, hplain, hslow, hexposed, hclass]
    rfl
  have hsubclass : (f.forTargetClass.configured id type).wantsSubclass (some type) = true := by
    rw [ProxyFactory.wantsSubclass_configured, hclass]
    rfl
  obtain ⟨u₁, hprepare, hgains⟩ := prepare_gains f id (some type) w
  obtain ⟨v₁, hprepare', hgains'⟩ := prepare_gains f.forTargetClass id (some type) w
  rw [ProxyFactory.assembled_of_standard hfactory] at hprepare
  rw [ProxyFactory.completed_of_standard hfactory] at hgains
  rw [ProxyFactory.assembled_of_standard (f := f.forTargetClass) hfactory] at hprepare'
  rw [ProxyFactory.completed_of_standard (f := f.forTargetClass) hfactory] at hgains'
  rw [makeProxy_of_source hf] at hu
  rw [makeProxy_of_source (f := f.forTargetClass) hf] at hv
  have hplaced := makeProxyOver_places hsource hu
  have hplaced' := makeProxyOver_places hsource hv
  rw [htype, run_bind_of_eq_some hprepare] at hplaced
  rw [htype, run_bind_of_eq_some hprepare'] at hplaced'
  obtain ⟨dispatch, types, u₂, line, hchosen, rfl, rfl⟩ := place_dispatches hplaced
  obtain ⟨dispatch', types', v₂, line', hchosen', rfl, rfl⟩ := place_dispatches hplaced'
  rw [htype] at hchosen hchosen'
  obtain ⟨_, rfl, rfl, rfl⟩ | ⟨own, _, hwants, _⟩ := chooseDispatch_eq_some hchosen
  swap
  · rw [hcontracts] at hwants
    cases hwants
  obtain ⟨hwants, _⟩ | ⟨own, d', _, htarget, hmade, rfl, rfl⟩ := chooseDispatch_eq_some hchosen'
  · rw [hsubclass] at hwants
    cases hwants
  cases htarget
  have hakin := f.akin w id type hadvice
  have hfound : w.sources[(f.established id type).source]? = some source := by
    rw [f.source_established id type]
    exact hsource
  obtain ⟨v₃, c', d, rfl, rfl, hgains'', hakin', hserves⟩ :=
    newDispatcher_gains hbelow hgains' hakin hfound htype hmade
  refine ⟨by rw [hgains.proxies], by rw [hgains''.proxies], ?_⟩
  have hinterfaces : (f.forTargetClass.configured id type).interfaces =
      (f.configured id type).interfaces := by
    rw [ProxyFactory.configured_forTargetClass]
    rfl
  rw [hinterfaces]
  exact (Twins.Beside.made (t := f.twins w id type advice) hw rfl rfl rfl hgains hgains'' hakin'
    hfound htype hserves _).quiet (.record rfl) (.record rfl)

end Making

end Run

end Weaving
