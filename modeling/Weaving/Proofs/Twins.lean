import Weaving.Proofs.Conduct
import Weaving.Proofs.SettledChains
import Mathlib.Order.Monotone.Basic

/-
Twins: two proxies made from one factory, one of each strategy, each in a world of its own.  The two
worlds go on side by side.  They differ in what the log says and what matchers are asked, in the
strategy of the twins, in the dispatcher that only the subclass proxy has, and in that this proxy may
know chains beforehand: those of the declared methods.
-/
namespace Weaving

variable {κ σ ν : Type}

/-- Two proxies made from one factory in equal worlds, so that they have the same identity.  The first
is of the contract strategy, the second of the subclass strategy. -/
structure Twins (κ : Type) where
  /-- The proxy. -/
  proxy : ProxyId
  /-- Its configuration. -/
  configuration : ConfigurationId
  /-- The dispatcher that only the second world has. -/
  dispatcher : DispatcherId
  /-- The target type. -/
  type : TypeInfo
  /-- The contracts that the proxy may stand for. -/
  contracts : List TypeInfo
  /-- The declared methods. -/
  methods : List MethodSignature
  /-- The registry of adapters. -/
  registry : AdapterRegistry κ
  /-- The advisors that may come into force. -/
  advisors : Advisor κ → Prop

namespace Twins

variable (t : Twins κ)

/-- A method that all advisors take for any declared method with the same key. -/
def Recognise (m : MethodSignature) : Prop :=
  ∀ other ∈ t.methods, other.key = m.key → ∀ a, t.advisors a → ∀ preFiltered introductions,
    a.contributes preFiltered introductions other t.type =
      a.contributes preFiltered introductions m t.type

/-- The methods of the calls that both twins take on. -/
structure Suits (m : MethodSignature) : Prop where
  regular : m.kind = .regular
  declared : m.declaringType.isRoot = true ∨
    ∃ contract ∈ t.contracts, contract.isAssignableTo m.declaringType = true
  returned : ∀ type, m.returnType = .reference type → t.type.isAssignableTo type = true →
    ∃ contract ∈ t.contracts, contract.isAssignableTo type = true
  recognised : t.Recognise m

/-- The dispatcher of the second world that is one of the first. -/
def across (d : DispatcherId) : DispatcherId := if d < t.dispatcher then d else d + 1

/-- The routing by the dispatcher of the second world that is one of the first. -/
def dispatchAcross : Dispatch → Dispatch
  | .contracts d => .contracts d
  | .subclass d => .subclass (t.across d)

/-- The proxy of the second world that is one of the first, the twins apart. -/
def proxyAcross (proxy : Proxy) : Proxy :=
  { proxy with dispatch := t.dispatchAcross proxy.dispatch }

variable {t}

theorem across_of_lt {d : DispatcherId} (h : d < t.dispatcher) : t.across d = d := if_pos h

theorem across_of_le {d : DispatcherId} (h : t.dispatcher ≤ d) : t.across d = d + 1 :=
  if_neg (Nat.not_lt.mpr h)

theorem across_ne (d : DispatcherId) : t.across d ≠ t.dispatcher := by
  rcases Nat.lt_or_ge d t.dispatcher with h | h
  · rw [across_of_lt h]
    exact Nat.ne_of_lt h
  · rw [across_of_le h]
    exact Nat.ne_of_gt (Nat.lt_succ_of_le h)

theorem across_strictMono : StrictMono t.across := by
  intro d e hde
  rcases Nat.lt_or_ge e t.dispatcher with he | he
  · rw [across_of_lt he, across_of_lt (Nat.lt_trans hde he)]
    exact hde
  · rw [across_of_le he]
    rcases Nat.lt_or_ge d t.dispatcher with hd | hd
    · rw [across_of_lt hd]
      exact Nat.lt_succ_of_lt hde
    · rw [across_of_le hd]
      exact Nat.succ_lt_succ hde

theorem across_inj {d e : DispatcherId} : t.across d = t.across e ↔ d = e :=
  across_strictMono.injective.eq_iff

end Twins

/-- A request of code that does not look at the twins or at what is different about them. -/
def Request.Discreet (t : Twins κ) : Request κ σ ν → Prop
  | .proxy id => id < t.proxy
  | .configuration id => id ≠ t.configuration
  | .dispatcher id => id < t.dispatcher
  | .invoke id m _ => id = t.proxy → t.Suits m
  | .insertAdvisor id _ a => id = t.configuration → t.advisors a
  | .chainFor id m type => id = t.configuration → type = some t.type ∧ t.Recognise m
  | .precompute id => id = t.configuration → ∀ m ∈ t.methods, t.Recognise m
  | .newDispatcher _ _ => False
  | .routeBySubclass d id _ _ => d < t.dispatcher ∧ id ≠ t.proxy
  | .routeByContracts _ id _ _ => id ≠ t.proxy
  | _ => True

namespace Configuration

variable {c : Configuration κ}

/-- The configuration of the second twin, given that of the first and what it remembers itself. -/
def recast (c : Configuration κ) (cache : ChainCache κ) : Configuration κ :=
  { c with flags := { c.flags with proxyTargetClass := true }, cache := cache }

theorem advisors_recast (cache : ChainCache κ) : (c.recast cache).advisors = c.advisors := rfl

theorem ensureMutable_recast (cache : ChainCache κ) (change : String) :
    (c.recast cache).ensureMutable change = c.ensureMutable change := rfl

end Configuration

namespace Twins

/-- The configurations of the twins.  The chains that the second remembers ahead of the first are
those of certain methods. -/
structure Akin (t : Twins κ) (ahead : List MethodSignature) (c c' : Configuration κ) : Prop where
  same : c' = c.recast c'.cache
  standard : c.chainFactory = .standard t.registry
  methods : c.methods = t.methods
  advisors : ∀ a ∈ c.advisors, t.advisors a
  follows : c.frozen = true → ∀ key chain,
    c.cache.find? key = some chain → c'.cache.find? key = some chain
  precedes : c.frozen = true → ∀ key chain, c'.cache.find? key = some chain →
    c.cache.find? key = some chain ∨ ∃ m ∈ ahead, key = .of m (some t.type) ∧
      c.outcome t.registry m (some t.type) = .ok chain

namespace Akin

variable {t : Twins κ} {ahead few : List MethodSignature} {c c' : Configuration κ}
  {m : MethodSignature} {target : Option TypeInfo}

theorem frozen (h : t.Akin ahead c c') : c'.frozen = c.frozen := by
  rw [h.same]
  rfl

theorem source (h : t.Akin ahead c c') : c'.source = c.source := by
  rw [h.same]
  rfl

theorem exposeProxy (h : t.Akin ahead c c') : c'.flags.exposeProxy = c.flags.exposeProxy := by
  rw [h.same]
  rfl

theorem standard' (h : t.Akin ahead c c') : c'.chainFactory = .standard t.registry := by
  rw [h.same]
  exact h.standard

theorem more (h : t.Akin ahead c c') {most : List MethodSignature} (hmost : ∀ m ∈ ahead, m ∈ most) :
    t.Akin most c c' where
  same := h.same
  standard := h.standard
  methods := h.methods
  advisors := h.advisors
  follows := h.follows
  precedes hfrozen key chain hfound :=
    (h.precedes hfrozen key chain hfound).imp_right fun ⟨m, hm, hkey⟩ => ⟨m, hmost m hm, hkey⟩

/-- Configurations that may still change know nothing beforehand. -/
theorem of_mutable (same : c' = c.recast c'.cache) (standard : c.chainFactory = .standard t.registry)
    (methods : c.methods = t.methods) (advisors : ∀ a ∈ c.advisors, t.advisors a)
    (hmutable : c.frozen = false) : t.Akin ahead c c' := by
  refine ⟨same, standard, methods, advisors, ?_, ?_⟩
  · intro hfrozen
    rw [hmutable] at hfrozen
    cases hfrozen
  · intro hfrozen
    rw [hmutable] at hfrozen
    cases hfrozen

/-- A recognised method has the same chain as any declared method with the same key. -/
theorem outcome_recognised (h : t.Akin ahead c c') (hm : t.Recognise m)
    {other : MethodSignature} (hother : other ∈ t.methods) (hkey : other.key = m.key) :
    c.outcome t.registry other (some t.type) = c.outcome t.registry m (some t.type) := by
  rw [Configuration.outcome, Configuration.outcome]
  congr 1
  exact List.filter_congr fun a ha => hm other hother hkey a (h.advisors a ha) _ _

/-- Methods that the second twin does not know beforehand to be any different. -/
def Unsurprising (t : Twins κ) (ahead : List MethodSignature) (c : Configuration κ)
    (m : MethodSignature) (target : Option TypeInfo) : Prop :=
  ∀ other ∈ ahead, ChainKey.of m target = .of other (some t.type) →
    c.outcome t.registry other (some t.type) = c.outcome t.registry m target

/-- The twins answer alike to the request for a chain. -/
theorem settled (h : t.Akin ahead c c') (hm : Unsurprising t ahead c m target) :
    c'.settled t.registry m target = c.settled t.registry m target := by
  have houtcome : c'.outcome t.registry m target = c.outcome t.registry m target := by
    rw [h.same]
    rfl
  rcases hfrozen : c.frozen with _ | _
  · rw [Configuration.settled_mutable hfrozen,
      Configuration.settled_mutable (h.frozen.trans hfrozen), houtcome]
  · have hfrozen' := h.frozen.trans hfrozen
    rcases hfound : c'.cache.find? (.of m target) with _ | chain
    · have hmissing : c.cache.find? (.of m target) = none := by
        rcases hfirst : c.cache.find? (.of m target) with _ | chain
        · rfl
        · rw [h.follows hfrozen _ _ hfirst] at hfound
          cases hfound
      rw [Configuration.settled_miss hfound, Configuration.settled_miss hmissing, houtcome]
    · rw [Configuration.settled_hit hfrozen' hfound]
      rcases h.precedes hfrozen _ _ hfound with hfirst | ⟨other, hother, hkey, hchain⟩
      · rw [Configuration.settled_hit hfrozen hfirst]
      · rcases hfirst : c.cache.find? (.of m target) with _ | first
        · rw [Configuration.settled_miss hfirst, ← hm other hother hkey, hchain]
        · cases (h.follows hfrozen _ _ hfirst).symm.trans hfound
          rw [Configuration.settled_hit hfrozen hfirst]

/-- Once both twins were asked for a chain the second is not ahead with it any more. -/
theorem settling (h : t.Akin ahead c c') (hm : Unsurprising t ahead c m target)
    (hfew : ∀ other ∈ ahead, other ∈ few ∨ ChainKey.of other (some t.type) = .of m target) :
    t.Akin few (c.settling t.registry m target) (c'.settling t.registry m target) := by
  have hsettled := h.settled hm
  rcases hfrozen : c.frozen with _ | _
  · rw [Configuration.settling_mutable hfrozen,
      Configuration.settling_mutable (h.frozen.trans hfrozen)]
    exact of_mutable h.same h.standard h.methods h.advisors hfrozen
  · have hfrozen' := h.frozen.trans hfrozen
    have hfirst : ∀ key, (c.settling t.registry m target).cache.find? key = _ :=
      Configuration.find?_settling hfrozen
    have hsecond : ∀ key, (c'.settling t.registry m target).cache.find? key = _ :=
      Configuration.find?_settling hfrozen'
    rw [Configuration.settling_eq c, Configuration.settling_eq c']
    refine ⟨?_, h.standard, h.methods, h.advisors, fun _ key chain hfound => ?_,
      fun _ key chain hfound => ?_⟩
    · generalize (c'.settling t.registry m target).cache = cache
      rw [h.same]
      rfl
    · refine (hsecond key).trans ?_
      have hfound' := (hfirst key).symm.trans hfound
      by_cases hkey : key = .of m target
      · rw [if_pos hkey] at hfound'
        rw [if_pos hkey, hsettled]
        exact hfound'
      · rw [if_neg hkey] at hfound'
        rw [if_neg hkey]
        exact h.follows hfrozen key chain hfound'
    · have hfound' := (hsecond key).symm.trans hfound
      by_cases hkey : key = .of m target
      · rw [if_pos hkey, hsettled] at hfound'
        refine .inl ((hfirst key).trans ?_)
        rw [if_pos hkey]
        exact hfound'
      · rw [if_neg hkey] at hfound'
        rcases h.precedes hfrozen key chain hfound' with hknown | ⟨other, hother, rfl, hchain⟩
        · refine .inl ((hfirst key).trans ?_)
          rw [if_neg hkey]
          exact hknown
        · rcases hfew other hother with hother | hsame
          · exact .inr ⟨other, hother, rfl, hchain⟩
          · exact absurd hsame hkey

/-- The second twin may be asked ahead for the chains of the methods that it may know beforehand. -/
theorem settling_second (h : t.Akin ahead c c') (hm : m ∈ ahead) :
    t.Akin ahead c (c'.settling t.registry m (some t.type)) := by
  rcases hfrozen : c'.frozen with _ | _
  · rw [Configuration.settling_mutable hfrozen]
    exact h
  · rcases hfound : c'.cache.find? (.of m (some t.type)) with _ | chain
    · have hsecond : ∀ key,
          (c'.settling t.registry m (some t.type)).cache.find? key = _ :=
        Configuration.find?_settling hfrozen
      rw [Configuration.settled_miss hfound] at hsecond
      rw [Configuration.settling_eq c']
      refine ⟨?_, h.standard, h.methods, h.advisors, fun hfirst key chain hknown => ?_,
        fun hfirst key chain hknown => ?_⟩
      · generalize (c'.settling t.registry m (some t.type)).cache = cache
        rw [h.same]
        rfl
      · have hkey : key ≠ .of m (some t.type) := by
          rintro rfl
          rw [h.follows hfirst _ _ hknown] at hfound
          cases hfound
        refine (hsecond key).trans ?_
        rw [if_neg hkey]
        exact h.follows hfirst key chain hknown
      · have hknown' := (hsecond key).symm.trans hknown
        by_cases hkey : key = .of m (some t.type)
        · have houtcome : c'.outcome t.registry m (some t.type) =
              c.outcome t.registry m (some t.type) := by
            rw [h.same]
            rfl
          rw [if_pos hkey, houtcome] at hknown'
          refine .inr ⟨m, hm, hkey, ?_⟩
          rcases hbuilt : c.outcome t.registry m (some t.type) with e | built
          · rw [hbuilt] at hknown'
            cases hknown'
          · rw [hbuilt] at hknown'
            cases hknown'
            rfl
        · rw [if_neg hkey] at hknown'
          exact h.precedes hfirst key chain hknown'
    · rw [Configuration.settling_hit hfrozen hfound]
      exact h

theorem freeze (h : t.Akin ahead c c') : t.Akin ahead c.freeze c'.freeze := by
  rcases hfrozen : c.frozen with _ | _
  · have hfirst : c.freeze = { c with frozen := true, cache := .empty } := by
      simp [Configuration.freeze, hfrozen]
    have hsecond : c'.freeze = { c' with frozen := true, cache := .empty } := by
      simp [Configuration.freeze, h.frozen.trans hfrozen]
    rw [hfirst, hsecond]
    refine ⟨?_, h.standard, h.methods, h.advisors, fun _ key chain hfound => ?_,
      fun _ key chain hfound => ?_⟩
    · rw [h.same]
      rfl
    · cases hfound
    · cases hfound
  · have hfirst : c.freeze = c := by simp [Configuration.freeze, hfrozen]
    have hsecond : c'.freeze = c' := by simp [Configuration.freeze, h.frozen.trans hfrozen]
    rw [hfirst, hsecond]
    exact h

end Akin

end Twins

/-- The dispatcher of a subclass proxy by which nobody but the proxy routes, and only ordinary calls:
what it chose can rely on what it stands for. -/
structure SubclassDispatcher.Serves (d : SubclassDispatcher κ) (c : Configuration κ)
    (source : Source κ) : Prop where
  made : d.MadeFor c source
  backed : ∀ m callback, d.callback? m = some callback →
    callback.Backed c source d.targetType m.key ∧ callback.isOwn = false

theorem SubclassDispatcher.Serves.later {d : SubclassDispatcher κ} {c c' : Configuration κ}
    {source : Source κ} (h : d.Serves c source) (hc : c.Later c') (change : Pool → Pool) :
    d.Serves c' (source.mapPool change) where
  made := h.made.later (.refl d) hc change
  backed m callback hcallback :=
    (h.backed m callback hcallback).imp_left fun hbacked => hbacked.later hc change

/-- Two worlds agree in everything but their configurations, dispatchers and proxies, and in what was
done in them. -/
structure World.Agrees (w v : World κ σ ν) : Prop where
  targets : v.targets = w.targets
  sources : v.sources = w.sources
  caches : v.caches = w.caches
  current : v.current = w.current
  calls : v.calls = w.calls
  memory : v.memory = w.memory
  doings : v.doings = w.doings

theorem World.Agrees.record {w v : World κ σ ν} (h : w.Agrees v) (e : Event ν) :
    (w.record e).Agrees (v.record e) := by
  refine ⟨h.targets, h.sources, h.caches, h.current, h.calls, h.memory, ?_⟩
  have hdoings : v.trace.filter (·.isDoing) = w.trace.filter (·.isDoing) := h.doings
  change (e :: v.trace).filter _ = (e :: w.trace).filter _
  rw [List.filter_cons, List.filter_cons, hdoings]

namespace Twins

/-- The parts of the twins in two worlds side by side. -/
structure Parts (t : Twins κ) (ahead : List MethodSignature) (w v : World κ σ ν)
    (c c' : Configuration κ) (source : Source κ) (d : SubclassDispatcher κ) : Prop where
  first : w.configurations[t.configuration]? = some c
  second : v.configurations[t.configuration]? = some c'
  akin : t.Akin ahead c c'
  sourced : w.sources[c.source]? = some source
  typed : source.type = some t.type
  dispatched : v.dispatchers[t.dispatcher]? = some d
  serves : d.Serves c' source

/-- The proxies of two worlds side by side. -/
structure Proxied (t : Twins κ) (ps qs : Array Proxy) : Prop where
  size : qs.size = ps.size
  first : ∃ d, ps[t.proxy]? = some ⟨t.configuration, .contracts d, t.contracts⟩
  second : qs[t.proxy]? =
    some ⟨t.configuration, .subclass t.dispatcher, t.type :: t.contracts⟩
  early : ∀ p : ProxyId, p < t.proxy → qs[p]? = ps[p]?
  others : ∀ p : ProxyId, p ≠ t.proxy → qs[p]? = (ps[p]?).map t.proxyAcross
  apart : ∀ (p : ProxyId) proxy, p ≠ t.proxy → ps[p]? = some proxy →
    proxy.configuration ≠ t.configuration

/-- The dispatchers of two worlds side by side. -/
structure Dispatched (t : Twins κ) (ds es : Array (SubclassDispatcher κ)) : Prop where
  known : t.dispatcher ≤ ds.size
  size : es.size = ds.size + 1
  others : ∀ d : DispatcherId, es[t.across d]? = ds[d]?

/-- Two worlds side by side, in which the twins are. -/
structure Beside (t : Twins κ) (ahead : List MethodSignature) (w v : World κ σ ν) : Prop where
  agrees : w.Agrees v
  size : v.configurations.size = w.configurations.size
  others : ∀ id : ConfigurationId, id ≠ t.configuration →
    v.configurations[id]? = w.configurations[id]?
  dispatched : t.Dispatched w.dispatchers v.dispatchers
  proxied : t.Proxied w.proxies v.proxies
  parts : ∃ c c' source d, t.Parts ahead w v c c' source d

namespace Beside

variable {t : Twins κ} {ahead few : List MethodSignature} {w v w' v' : World κ σ ν}

/-- What changes neither configurations nor dispatchers nor proxies, and no source but in its pool,
leaves worlds side by side if they still agree. -/
theorem elsewhere (h : t.Beside ahead w v) (agrees : w'.Agrees v')
    (first : w'.configurations = w.configurations ∧ w'.dispatchers = w.dispatchers ∧
      w'.proxies = w.proxies := by exact ⟨rfl, rfl, rfl⟩)
    (second : v'.configurations = v.configurations ∧ v'.dispatchers = v.dispatchers ∧
      v'.proxies = v.proxies := by exact ⟨rfl, rfl, rfl⟩)
    (sources : ∀ (id : SourceId) (source : Source κ), w.sources[id]? = some source →
      ∃ change, w'.sources[id]? = some (source.mapPool change) := by
        exact fun _ source hsource => ⟨fun pool => pool, hsource.trans (by simp)⟩) :
    t.Beside ahead w' v' := by
  obtain ⟨hconfigurations, hdispatchers, hproxies⟩ := first
  obtain ⟨hconfigurations', hdispatchers', hproxies'⟩ := second
  obtain ⟨c, c', source, d, parts⟩ := h.parts
  obtain ⟨change, hsource⟩ := sources c.source source parts.sourced
  refine ⟨agrees, ?_, ?_, ?_, ?_, c, c', source.mapPool change, d, ?_, ?_, parts.akin, hsource, ?_,
    ?_, parts.serves.later (.refl c') change⟩
  · rw [hconfigurations, hconfigurations']
    exact h.size
  · rw [hconfigurations, hconfigurations']
    exact h.others
  · rw [hdispatchers, hdispatchers']
    exact h.dispatched
  · rw [hproxies, hproxies']
    exact h.proxied
  · rw [hconfigurations]
    exact parts.first
  · rw [hconfigurations']
    exact parts.second
  · rw [Source.type_mapPool]
    exact parts.typed
  · rw [hdispatchers']
    exact parts.dispatched

theorem record (h : t.Beside ahead w v) (e : Event ν) :
    t.Beside ahead (w.record e) (v.record e) :=
  h.elsewhere (h.agrees.record e)

/-- Log lines and questions on either side make no difference. -/
theorem quiet (h : t.Beside ahead w v) (hw : w.Quiet w') (hv : v.Quiet v') :
    t.Beside ahead w' v' := by
  have hdoings : v'.doings = w'.doings := by rw [hv.doings, hw.doings, h.agrees.doings]
  obtain ⟨htargets, hsources, hcaches, hcurrent, hcalls, hmemory, _⟩ := h.agrees
  rw [hw.same, hv.same] at hdoings ⊢
  exact h.elsewhere ⟨htargets, hsources, hcaches, hcurrent, hcalls, hmemory, hdoings⟩

/-- The twins' configurations may change as long as they stay akin. -/
theorem reconfigure (h : t.Beside ahead w v) {f g : Configuration κ → Configuration κ}
    (changed : ∀ c c', w.configurations[t.configuration]? = some c →
      v.configurations[t.configuration]? = some c' → t.Akin ahead c c' →
      t.Akin few (f c) (g c') ∧ (f c).source = c.source ∧ c'.Later (g c')) :
    t.Beside few (w.mapConfiguration t.configuration f)
      (v.mapConfiguration t.configuration g) := by
  obtain ⟨c, c', source, d, parts⟩ := h.parts
  obtain ⟨hakin, hsource, hlater⟩ := changed c c' parts.first parts.second parts.akin
  obtain ⟨htargets, hsources, hcaches, hcurrent, hcalls, hmemory, hdoings⟩ := h.agrees
  have hserves := parts.serves.later hlater fun pool => pool
  refine ⟨⟨htargets, hsources, hcaches, hcurrent, hcalls, hmemory, hdoings⟩, ?_, fun id hid => ?_,
    h.dispatched, h.proxied, f c, g c', source.mapPool fun pool => pool, d, ?_, ?_, hakin, ?_, ?_,
    parts.dispatched, hserves⟩
  · change (v.configurations.modify _ _).size = (w.configurations.modify _ _).size
    rw [Array.size_modify, Array.size_modify]
    exact h.size
  · change (v.configurations.modify _ _)[id]? = (w.configurations.modify _ _)[id]?
    rw [Array.getElem?_modify, Array.getElem?_modify, if_neg (Ne.symm hid), if_neg (Ne.symm hid)]
    exact h.others id hid
  · change (w.configurations.modify _ _)[t.configuration]? = _
    rw [Array.getElem?_modify, if_pos rfl, parts.first]
    rfl
  · change (v.configurations.modify _ _)[t.configuration]? = _
    rw [Array.getElem?_modify, if_pos rfl, parts.second]
    rfl
  · rw [hsource]
    exact parts.sourced.trans (by simp)
  · rw [Source.type_mapPool]
    exact parts.typed

/-- The second twin's configuration may change alone if the two stay akin. -/
theorem reconfigureSecond (h : t.Beside ahead w v) {c c' known : Configuration κ}
    (hc : w.configurations[t.configuration]? = some c)
    (hc' : v.configurations[t.configuration]? = some c') (hakin : t.Akin few c known)
    (hlater : c'.Later known) :
    t.Beside few w (v.mapConfiguration t.configuration fun _ => known) := by
  have hchanged : t.Beside few (w.mapConfiguration t.configuration fun _ => c)
      (v.mapConfiguration t.configuration fun _ => known) := by
    refine h.reconfigure fun c₁ c₁' hc₁ hc₁' _ => ?_
    obtain rfl : c₁ = c := Option.some.inj (hc₁.symm.trans hc)
    obtain rfl : c₁' = c' := Option.some.inj (hc₁'.symm.trans hc')
    exact ⟨hakin, rfl, hlater⟩
  rw [World.mapConfiguration_self hc] at hchanged
  exact hchanged

theorem more (h : t.Beside ahead w v) (hmore : ∀ m ∈ ahead, m ∈ few) : t.Beside few w v := by
  obtain ⟨c, c', source, d, parts⟩ := h.parts
  have hsame := h.reconfigureSecond parts.first parts.second (parts.akin.more hmore) (.refl c')
  rw [World.mapConfiguration_self parts.second] at hsame
  exact hsame

/-- Other configurations may change as long as they change alike. -/
theorem mapConfiguration (h : t.Beside ahead w v) {id : ConfigurationId}
    (hid : id ≠ t.configuration) (change : Configuration κ → Configuration κ) :
    t.Beside ahead (w.mapConfiguration id change) (v.mapConfiguration id change) := by
  obtain ⟨c, c', source, d, parts⟩ := h.parts
  obtain ⟨htargets, hsources, hcaches, hcurrent, hcalls, hmemory, hdoings⟩ := h.agrees
  refine ⟨⟨htargets, hsources, hcaches, hcurrent, hcalls, hmemory, hdoings⟩, ?_,
    fun other hother => ?_, h.dispatched, h.proxied, c, c', source, d, ?_, ?_, parts.akin,
    parts.sourced, parts.typed, parts.dispatched, parts.serves⟩
  · change (v.configurations.modify _ _).size = (w.configurations.modify _ _).size
    rw [Array.size_modify, Array.size_modify]
    exact h.size
  · change (v.configurations.modify _ _)[other]? = (w.configurations.modify _ _)[other]?
    rw [Array.getElem?_modify, Array.getElem?_modify, h.others other hother]
  · change (w.configurations.modify _ _)[t.configuration]? = _
    rw [Array.getElem?_modify, if_neg hid]
    exact parts.first
  · change (v.configurations.modify _ _)[t.configuration]? = _
    rw [Array.getElem?_modify, if_neg hid]
    exact parts.second

theorem pushConfiguration (h : t.Beside ahead w v) (c : Configuration κ) :
    t.Beside ahead { w with configurations := w.configurations.push c }
      { v with configurations := v.configurations.push c } := by
  obtain ⟨c₀, c', source, d, parts⟩ := h.parts
  obtain ⟨htargets, hsources, hcaches, hcurrent, hcalls, hmemory, hdoings⟩ := h.agrees
  refine ⟨⟨htargets, hsources, hcaches, hcurrent, hcalls, hmemory, hdoings⟩, ?_,
    fun other hother => ?_, h.dispatched, h.proxied, c₀, c', source, d,
    World.getElem?_push_of_some c parts.first, World.getElem?_push_of_some c parts.second, parts.akin,
    parts.sourced, parts.typed, parts.dispatched, parts.serves⟩
  · rw [Array.size_push, Array.size_push, h.size]
  · change (v.configurations.push c)[other]? = (w.configurations.push c)[other]?
    rw [Array.getElem?_push, Array.getElem?_push, h.size, h.others other hother]

/-- Dispatchers that both worlds have may change as long as they change alike. -/
theorem mapDispatcher (h : t.Beside ahead w v) (dispatcher : DispatcherId)
    (change : SubclassDispatcher κ → SubclassDispatcher κ) :
    t.Beside ahead (w.mapDispatcher dispatcher change)
      (v.mapDispatcher (t.across dispatcher) change) := by
  obtain ⟨c, c', source, d, parts⟩ := h.parts
  obtain ⟨htargets, hsources, hcaches, hcurrent, hcalls, hmemory, hdoings⟩ := h.agrees
  refine ⟨⟨htargets, hsources, hcaches, hcurrent, hcalls, hmemory, hdoings⟩, h.size, h.others,
    ⟨?_, ?_, fun other => ?_⟩, h.proxied, c, c', source, d, parts.first, parts.second, parts.akin,
    parts.sourced, parts.typed, ?_, parts.serves⟩
  · change t.dispatcher ≤ (w.dispatchers.modify _ _).size
    rw [Array.size_modify]
    exact h.dispatched.known
  · change (v.dispatchers.modify _ _).size = (w.dispatchers.modify _ _).size + 1
    rw [Array.size_modify, Array.size_modify]
    exact h.dispatched.size
  · change (v.dispatchers.modify _ _)[t.across other]? = (w.dispatchers.modify _ _)[other]?
    rw [Array.getElem?_modify, Array.getElem?_modify, h.dispatched.others other]
    simp only [across_inj]
  · change (v.dispatchers.modify _ _)[t.dispatcher]? = _
    rw [Array.getElem?_modify, if_neg (across_ne dispatcher)]
    exact parts.dispatched

/-- The twins' dispatcher may come to remember a callback that can rely on what it stands for. -/
theorem remember (h : t.Beside ahead w v) {m : MethodSignature} {callback : Callback κ}
    (backed : ∀ c' source d, v.configurations[t.configuration]? = some c' →
      v.sources[c'.source]? = some source → v.dispatchers[t.dispatcher]? = some d →
      d.MadeFor c' source → callback.Backed c' source d.targetType m.key)
    (hown : callback.isOwn = false) :
    t.Beside ahead w (v.mapDispatcher t.dispatcher (·.remember m callback)) := by
  obtain ⟨c, c', source, d, parts⟩ := h.parts
  obtain ⟨htargets, hsources, hcaches, hcurrent, hcalls, hmemory, hdoings⟩ := h.agrees
  have hsource : v.sources[c'.source]? = some source := by
    rw [hsources, parts.akin.source]
    exact parts.sourced
  have hbacked := backed c' source d parts.second hsource parts.dispatched parts.serves.made
  refine ⟨⟨htargets, hsources, hcaches, hcurrent, hcalls, hmemory, hdoings⟩, h.size, h.others,
    ⟨h.dispatched.known, ?_, fun other => ?_⟩, h.proxied, c, c', source, d.remember m callback,
    parts.first, parts.second, parts.akin, parts.sourced, parts.typed, ?_, ⟨?_, ?_⟩⟩
  · change (v.dispatchers.modify _ _).size = _
    rw [Array.size_modify]
    exact h.dispatched.size
  · change (v.dispatchers.modify _ _)[t.across other]? = _
    rw [Array.getElem?_modify, if_neg (Ne.symm (across_ne other))]
    exact h.dispatched.others other
  · change (v.dispatchers.modify _ _)[t.dispatcher]? = _
    rw [Array.getElem?_modify, if_pos rfl, parts.dispatched]
    rfl
  · exact parts.serves.made
  · intro other found hfound
    rcases SubclassDispatcher.callback?_remember_eq_some hfound with hold | ⟨hkey, _, rfl⟩
    · exact parts.serves.backed other found hold
    · rw [hkey]
      exact ⟨hbacked, hown⟩

theorem pushDispatcher (h : t.Beside ahead w v) (d : SubclassDispatcher κ) :
    t.Beside ahead { w with dispatchers := w.dispatchers.push d }
      { v with dispatchers := v.dispatchers.push d } := by
  obtain ⟨c, c', source, own, parts⟩ := h.parts
  obtain ⟨htargets, hsources, hcaches, hcurrent, hcalls, hmemory, hdoings⟩ := h.agrees
  refine ⟨⟨htargets, hsources, hcaches, hcurrent, hcalls, hmemory, hdoings⟩, h.size, h.others,
    ⟨?_, ?_, fun other => ?_⟩, h.proxied, c, c', source, own, parts.first, parts.second, parts.akin,
    parts.sourced, parts.typed, World.getElem?_push_of_some d parts.dispatched, parts.serves⟩
  · rw [Array.size_push]
    exact Nat.le_succ_of_le h.dispatched.known
  · rw [Array.size_push, Array.size_push, h.dispatched.size]
  · have hknown := h.dispatched.known
    have hlast : t.across other = v.dispatchers.size ↔ other = w.dispatchers.size := by
      rw [h.dispatched.size, ← across_of_le hknown]
      exact across_inj
    rw [Array.getElem?_push, Array.getElem?_push, h.dispatched.others other]
    simp only [hlast]

theorem pushProxy (h : t.Beside ahead w v) {proxy : Proxy}
    (hapart : proxy.configuration ≠ t.configuration) :
    t.Beside ahead { w with proxies := w.proxies.push proxy }
      { v with proxies := v.proxies.push (t.proxyAcross proxy) } := by
  obtain ⟨c, c', source, d, parts⟩ := h.parts
  obtain ⟨htargets, hsources, hcaches, hcurrent, hcalls, hmemory, hdoings⟩ := h.agrees
  obtain ⟨hsize, ⟨dispatch, hfirst⟩, hsecond, hearly, hothers, hapart'⟩ := h.proxied
  have hknown : t.proxy < w.proxies.size := (Array.getElem?_eq_some_iff.mp hfirst).1
  refine ⟨⟨htargets, hsources, hcaches, hcurrent, hcalls, hmemory, hdoings⟩, h.size, h.others,
    h.dispatched, ⟨?_, ⟨dispatch, World.getElem?_push_of_some proxy hfirst⟩,
      World.getElem?_push_of_some _ hsecond, fun p hp => ?_, fun p hp => ?_,
      fun p found hp hfound => ?_⟩,
    c, c', source, d, parts.first, parts.second, parts.akin, parts.sourced, parts.typed,
    parts.dispatched, parts.serves⟩
  · rw [Array.size_push, Array.size_push, hsize]
  · have hlast : p ≠ w.proxies.size := Nat.ne_of_lt (Nat.lt_trans hp hknown)
    rw [Array.getElem?_push, Array.getElem?_push, hsize, if_neg hlast, if_neg hlast]
    exact hearly p hp
  · rw [Array.getElem?_push, Array.getElem?_push, hsize, hothers p hp]
    split
    · rfl
    · rfl
  · change (w.proxies.push proxy)[p]? = some found at hfound
    rw [Array.getElem?_push] at hfound
    split at hfound
    · cases hfound
      exact hapart
    · exact hapart' p found hp hfound

end Beside

end Twins

end Weaving
