import Weaving.Proofs.Routes

/-
The turns that a run takes when user code keeps its hands off the dispatchers of proxies.  Such code
leaves it to each proxy to route its calls by its own dispatcher, and gives its identity methods keys
that are set apart for them.  Every callback that a proxy remembers was then chosen for that proxy,
so the proxy's own configuration backs it; and every chain that a configuration remembers was built
in such a run, from the advisors that the configuration was frozen with.
-/
namespace Weaving

variable {κ σ ν α : Type}

/-- A program makes only requests that it may make, whatever it is told. -/
def Program.Asks {Req : Type} {Ans : Req → Type} (may : Req → Prop) : Program Req Ans α → Prop
  | .done _ => True
  | .ask request resume => may request ∧ ∀ answer, (resume answer).Asks may

section Proper

variable (identity : MethodKey → Prop) (guards : Prop)

/-- A request that routes no call by a dispatcher taken by hand, calls identity methods by the keys
set apart for them, and exposes objects only if that is allowed. -/
def Request.Proper : Request κ σ ν → Prop
  | .invoke _ m _ => m.kind ≠ .regular → identity m.key
  | .routeBySubclass _ _ _ _ => False
  | .expose _ => guards
  | _ => True

/-- A request at a call that is proper as far as it may be made anywhere. -/
def JoinPointRequest.Proper : JoinPointRequest κ σ ν → Prop
  | .outer request => request.Proper identity guards
  | _ => True

/-- A request of around advice that is proper as far as it may be made anywhere. -/
def AroundRequest.Proper : AroundRequest κ σ ν → Prop
  | .inner request => request.Proper identity guards
  | _ => True

/-- User code that makes proper requests only. -/
structure Host.Proper (host : Host κ σ ν) : Prop where
  around : ∀ code, (host.around code).Asks (·.Proper identity guards)
  before : ∀ code, (host.before code).Asks (·.Proper identity guards)
  afterReturning : ∀ code value,
    (host.afterReturning code value).Asks (·.Proper identity guards)
  afterThrowing : ∀ code e, (host.afterThrowing code e).Asks (·.Proper identity guards)
  after : ∀ code, (host.after code).Asks (·.Proper identity guards)
  target : ∀ code target m arguments,
    (host.target code target m arguments).Asks (·.Proper identity guards)
  make : ∀ code, (host.make code).Asks (·.Proper identity guards)
  acquire : ∀ code, (host.acquire code).Asks (·.Proper identity guards)
  release : ∀ code target, (host.release code target).Asks (·.Proper identity guards)
  chain : ∀ code advisors preFiltered m target,
    (host.chain code advisors preFiltered m target).Asks (·.Proper identity guards)
  builder : ∀ code, (host.builder code).Asks (·.Proper identity guards)

theorem Host.idle_proper : (Host.idle : Host κ σ ν).Proper identity guards where
  around _ := ⟨trivial, fun _ => trivial⟩
  before _ := trivial
  afterReturning _ _ := trivial
  afterThrowing _ _ := trivial
  after _ := trivial
  target _ _ _ _ := trivial
  make _ := trivial
  acquire _ := trivial
  release _ _ := trivial
  chain _ _ _ _ _ := trivial
  builder _ := trivial

end Proper

/-- A method that a dispatcher leaves to the proxy itself is no ordinary one. -/
theorem SubclassDispatcher.kind_of_keeps {d : SubclassDispatcher κ} {m : MethodSignature}
    (h : d.keeps m = true) : m.kind ≠ .regular := by
  intro hregular
  simp [keeps, MethodSignature.isOwn, hregular] at h

namespace World

variable {host : Host κ σ ν} {identity : MethodKey → Prop}

/-- A dispatcher that no proxy routes by and that has not been routed by yet. -/
structure Unused (w : World κ σ ν) (dispatcher : DispatcherId) : Prop where
  fresh : ∀ d : SubclassDispatcher κ, w.dispatchers[dispatcher]? = some d → d.callbacks = []
  unowned : ∀ (p : ProxyId) (proxy : Proxy), w.proxies[p]? = some proxy →
    proxy.dispatch ≠ .subclass dispatcher

/-- The chains that configurations remember in a later world they remembered before. -/
def Recalls (w w' : World κ σ ν) : Prop :=
  ∀ (id : ConfigurationId) (c' : Configuration κ) (key : ChainKey) (chain : Chain κ),
    w'.configurations[id]? = some c' → c'.cache.find? key = some chain →
    ∃ c, w.configurations[id]? = some c ∧ c.cache.find? key = some chain

theorem Recalls.same {w w' : World κ σ ν} (h : w'.configurations = w.configurations) :
    w.Recalls w' := by
  intro id c' key chain hc hfound
  exact ⟨c', h ▸ hc, hfound⟩

theorem Recalls.configured {w : World κ σ ν} {id : ConfigurationId} {c : Configuration κ}
    {change : Configuration κ → Configuration κ} (found : w.configurations[id]? = some c)
    (h : ∀ key chain, (change c).cache.find? key = some chain → c.cache.find? key = some chain) :
    w.Recalls (w.mapConfiguration id change) := by
  intro other c' key chain hc hfound
  change (w.configurations.modify id change)[other]? = some c' at hc
  rw [Array.getElem?_modify] at hc
  split at hc
  · rename_i hid
    subst hid
    rw [found] at hc
    cases hc
    exact ⟨c, found, h key chain hfound⟩
  · exact ⟨c', hc, hfound⟩

/-- The turns that a run can take between one chain that is remembered and the next: dispatchers and
proxies are made and stay as they are, but for the callbacks that a proxy has its own dispatcher
remember. -/
inductive Turn (host : Host κ σ ν) (identity : MethodKey → Prop) (w : World κ σ ν) :
    World κ σ ν → Prop where
  | recorded {e : Event ν} : Turn host identity w (w.record e)
  | kept {w' : World κ σ ν} (leads : w.Leads host (fun _ => True) w')
      (dispatchers : w'.dispatchers = w.dispatchers) (proxies : w'.proxies = w.proxies)
      (recalls : w.Recalls w') : Turn host identity w w'
  | madeDispatcher {d : SubclassDispatcher κ} (fresh : d.callbacks = []) :
      Turn host identity w { w with dispatchers := w.dispatchers.push d }
  | madeProxy {proxy : Proxy} (fits : w.Fits proxy)
      (unused : ∀ dispatcher, proxy.dispatch = .subclass dispatcher → w.Unused dispatcher) :
      Turn host identity w { w with proxies := w.proxies.push proxy }
  | chose {p : ProxyId} {proxy : Proxy} {c : Configuration κ} {source : Source κ}
      {dispatcher : DispatcherId} {d : SubclassDispatcher κ} {m : MethodSignature}
      {callback : Callback κ} (parts : w.parts? p = some (proxy, c, source))
      (dispatch : proxy.dispatch = .subclass dispatcher)
      (found : w.dispatchers[dispatcher]? = some d) (own : callback.isOwn = d.keeps m)
      (named : m.kind ≠ .regular → identity m.key)
      (backed : callback.Backed c source d.targetType m.key) :
      Turn host identity w (w.mapDispatcher dispatcher (·.remember m callback))

/-- The worlds that such runs lead to, those in the middle of calls included. -/
inductive Visited (host : Host κ σ ν) (identity : MethodKey → Prop) : World κ σ ν → Prop where
  | initial (memory : σ) : Visited host identity (World.initial memory)
  | turn {w w' : World κ σ ν} (before : Visited host identity w) (turn : w.Turn host identity w') :
      Visited host identity w'
  | remembered {u u' w : World κ σ ν} {depth : Nat} {id : ConfigurationId} {c : Configuration κ}
      {m : MethodSignature} {target : Option TypeInfo} {chain : Chain κ}
      (began : Visited host identity u)
      (built : (Run.buildChain host (Run.answer host depth) c m target).run u =
        some (.ok chain, u'))
      (before : Visited host identity w) (found : w.configurations[id]? = some c)
      (frozen : c.frozen = true) :
      Visited host identity (w.mapConfiguration id (·.remember (.of m target) chain))

/-- What is exposed makes no difference to the rest of a world. -/
theorem Turn.exposed (w : World κ σ ν) (value : Option Value) :
    w.Turn host identity { w with current := value } :=
  .kept (Step.leads .exposed) rfl rfl (.same rfl)

theorem Visited.exposing {w : World κ σ ν} (h : w.Visited host identity) (exposed : Bool)
    (p : ProxyId) : (w.exposing exposed p).Visited host identity := by
  cases exposed with
  | false => exact h
  | true => exact h.turn (.exposed w _)

theorem Turn.later {w w' : World κ σ ν} (h : w.Turn host identity w') : w.Later w' := by
  cases h with
  | recorded =>
      have hsame := Later.refl w
      exact ⟨hsame.1, hsame.2, hsame.3, hsame.4, hsame.5, hsame.6⟩
  | kept leads _ _ _ => exact leads.later
  | madeDispatcher fresh =>
      have hstep : w.Step host (fun _ => True) _ := .madeDispatcher fresh
      exact hstep.later
  | madeProxy fits _ =>
      have hstep : w.Step host (fun _ => True) _ := .madeProxy fits
      exact hstep.later
  | @chose p proxy c source dispatcher d m callback parts dispatch found own named backed =>
      have hc := (World.parts?_eq_some.mp parts).2.1
      have hbacked : ∀ c', w.configurations[proxy.configuration]? = some c' →
          d.MadeFor c' source → callback.Backed c' source d.targetType m.key :=
        fun c' hc' _ => Option.some.inj (hc.symm.trans hc') ▸ backed
      have hstep : w.Step host (fun _ => True) _ := .chose found own hbacked
      exact hstep.later

/-- A proxy keeps its parts, whatever becomes of them. -/
theorem Later.parts {w w' : World κ σ ν} (h : w.Later w') {p : ProxyId} {proxy : Proxy}
    {c : Configuration κ} {source : Source κ} (hparts : w.parts? p = some (proxy, c, source)) :
    ∃ c' change, w'.parts? p = some (proxy, c', source.mapPool change) ∧ c.Later c' := by
  obtain ⟨hproxy, hc, hsource⟩ := parts?_eq_some.mp hparts
  obtain ⟨c', hc', hlater⟩ := h.configurations _ c hc
  obtain ⟨change, hchange⟩ := h.sources _ source hsource
  refine ⟨c', change, parts?_eq_some.mpr ⟨h.proxies p proxy hproxy, hc', ?_⟩, hlater⟩
  rw [hlater.source]
  exact hchange

/-- What holds of proxies and their dispatchers in every visited world. -/
structure Orderly (identity : MethodKey → Prop) (w : World κ σ ν) : Prop where
  /-- The parts of every proxy belong together. -/
  fits : ∀ (p : ProxyId) (proxy : Proxy), w.proxies[p]? = some proxy → w.Fits proxy
  /-- Proxies do not share a dispatcher. -/
  apart : ∀ {p q : ProxyId} {proxy other : Proxy} {dispatcher : DispatcherId},
    w.proxies[p]? = some proxy → w.proxies[q]? = some other →
    proxy.dispatch = .subclass dispatcher → other.dispatch = .subclass dispatcher → proxy = other
  /-- The callbacks of a proxy are backed by its configuration, and it keeps to itself only methods
  with keys set apart for that. -/
  backed : ∀ {p : ProxyId} {proxy : Proxy} {c : Configuration κ} {source : Source κ}
    {dispatcher : DispatcherId} {d : SubclassDispatcher κ} {m : MethodSignature}
    {callback : Callback κ}, w.parts? p = some (proxy, c, source) →
    proxy.dispatch = .subclass dispatcher → w.dispatchers[dispatcher]? = some d →
    d.callback? m = some callback →
    callback.Backed c source d.targetType m.key ∧ (callback.isOwn = true → identity m.key)

theorem Fits.parts? {w : World κ σ ν} {p : ProxyId} {proxy : Proxy} (h : w.Fits proxy)
    (hproxy : w.proxies[p]? = some proxy) :
    ∃ c source, w.parts? p = some (proxy, c, source) := by
  obtain ⟨c, source, hc, hsource, _⟩ := h
  exact ⟨c, source, parts?_eq_some.mpr ⟨hproxy, hc, hsource⟩⟩

/-- A proxy of the subclass strategy has a dispatcher that was made for it. -/
theorem Orderly.madeFor {w : World κ σ ν} (h : w.Orderly identity) {p : ProxyId} {proxy : Proxy}
    {c : Configuration κ} {source : Source κ} {dispatcher : DispatcherId}
    (hparts : w.parts? p = some (proxy, c, source))
    (hdispatch : proxy.dispatch = .subclass dispatcher) :
    ∃ d, w.dispatchers[dispatcher]? = some d ∧ d.MadeFor c source := by
  obtain ⟨hproxy, hc, hsource⟩ := parts?_eq_some.mp hparts
  obtain ⟨c', source', hc', hsource', hrouting⟩ := h.fits p proxy hproxy
  obtain rfl : c' = c := Option.some.inj (hc'.symm.trans hc)
  obtain rfl : source' = source := Option.some.inj (hsource'.symm.trans hsource)
  rw [hdispatch] at hrouting
  obtain ⟨d, hd, hmade, _⟩ := hrouting
  exact ⟨d, hd, hmade⟩

theorem Orderly.initial (memory : σ) : (World.initial memory : World κ σ ν).Orderly identity where
  fits p proxy h := by simp [World.initial] at h
  apart h := by simp [World.initial] at h
  backed h := by simp [World.initial, parts?] at h

/-- Callbacks stay backed while dispatchers and proxies stay as they are. -/
theorem Orderly.kept {w w' : World κ σ ν} (h : w.Orderly identity) (hlater : w.Later w')
    (hdispatchers : w'.dispatchers = w.dispatchers) (hproxies : w'.proxies = w.proxies) :
    w'.Orderly identity where
  fits p proxy hp := (h.fits p proxy (hproxies ▸ hp)).later hlater
  apart hp hq := by
    rw [hproxies] at hp hq
    exact h.apart hp hq
  backed hparts hdispatch hd hcallback := by
    have hproxy := (parts?_eq_some.mp hparts).1
    rw [hproxies] at hproxy
    obtain ⟨c, source, hold⟩ := (h.fits _ _ hproxy).parts? hproxy
    obtain ⟨c', change, hnew, hc⟩ := hlater.parts hold
    cases hnew.symm.trans hparts
    rw [hdispatchers] at hd
    obtain ⟨hbacked, hown⟩ := h.backed hold hdispatch hd hcallback
    exact ⟨hbacked.later hc change, hown⟩

/-- A new dispatcher has no callbacks that would have to be backed. -/
theorem Orderly.madeDispatcher {w : World κ σ ν} (h : w.Orderly identity)
    {made : SubclassDispatcher κ} (fresh : made.callbacks = []) (host : Host κ σ ν) :
    ({ w with dispatchers := w.dispatchers.push made } : World κ σ ν).Orderly identity where
  fits p proxy hp := by
    have hturn : w.Turn host identity _ := .madeDispatcher fresh
    exact (h.fits p proxy hp).later hturn.later
  apart := h.apart
  backed := by
    intro p proxy c source dispatcher d m callback hparts hdispatch hd hcallback
    rw [Array.getElem?_push] at hd
    split at hd
    · cases hd
      rw [SubclassDispatcher.callback?, fresh] at hcallback
      cases hcallback
    · exact h.backed hparts hdispatch hd hcallback

/-- A new proxy shares its dispatcher with no other one. -/
theorem Orderly.madeProxy {w : World κ σ ν} (h : w.Orderly identity) {made : Proxy}
    (fits : w.Fits made)
    (unused : ∀ dispatcher, made.dispatch = .subclass dispatcher → w.Unused dispatcher)
    (host : Host κ σ ν) :
    ({ w with proxies := w.proxies.push made } : World κ σ ν).Orderly identity := by
  have hturn : w.Turn host identity { w with proxies := w.proxies.push made } :=
    .madeProxy fits unused
  have hlater := hturn.later
  have hproxies : ∀ {p : ProxyId} {proxy : Proxy}, (w.proxies.push made)[p]? = some proxy →
      proxy = made ∨ w.proxies[p]? = some proxy := by
    intro p proxy hp
    rw [Array.getElem?_push] at hp
    split at hp
    · exact .inl (Option.some.inj hp).symm
    · exact .inr hp
  refine ⟨fun p proxy hp => ?_, fun hp hq hdispatch hother => ?_, ?_⟩
  · rcases hproxies hp with rfl | hold
    · exact fits.later hlater
    · exact (h.fits p proxy hold).later hlater
  · rcases hproxies hp with rfl | hold
    · rcases hproxies hq with rfl | hold'
      · rfl
      · exact absurd hother ((unused _ hdispatch).unowned _ _ hold')
    · rcases hproxies hq with rfl | hold'
      · exact absurd hdispatch ((unused _ hother).unowned _ _ hold)
      · exact h.apart hold hold' hdispatch hother
  · intro p proxy c source dispatcher d m callback hparts hdispatch hd hcallback
    obtain ⟨hproxy, hc, hsource⟩ := parts?_eq_some.mp hparts
    rcases hproxies hproxy with rfl | hold
    · rw [SubclassDispatcher.callback?, (unused _ hdispatch).fresh d hd] at hcallback
      cases hcallback
    · exact h.backed (parts?_eq_some.mpr ⟨hold, hc, hsource⟩) hdispatch hd hcallback

/-- A callback that a proxy's configuration backs may be remembered by its dispatcher. -/
theorem Orderly.chose {w : World κ σ ν} (h : w.Orderly identity) {p : ProxyId} {proxy : Proxy}
    {c : Configuration κ} {source : Source κ} {dispatcher : DispatcherId}
    {d : SubclassDispatcher κ} {m : MethodSignature} {callback : Callback κ}
    (hlater : w.Later (w.mapDispatcher dispatcher (·.remember m callback)))
    (parts : w.parts? p = some (proxy, c, source))
    (dispatch : proxy.dispatch = .subclass dispatcher)
    (found : w.dispatchers[dispatcher]? = some d) (own : callback.isOwn = true → identity m.key)
    (backed : callback.Backed c source d.targetType m.key) :
    (w.mapDispatcher dispatcher (·.remember m callback)).Orderly identity := by
  refine ⟨fun q other hq => (h.fits q other hq).later hlater, h.apart, ?_⟩
  intro q other c' source' dispatcher' d' m' callback' hparts hdispatch hd hcallback
  have hsame : w.parts? q = some (other, c', source') := hparts
  change (w.dispatchers.modify dispatcher _)[dispatcher']? = some d' at hd
  rw [Array.getElem?_modify] at hd
  split at hd
  · rename_i heq
    subst heq
    rw [found] at hd
    cases hd
    obtain rfl : proxy = other := h.apart (parts?_eq_some.mp parts).1
      (parts?_eq_some.mp hsame).1 dispatch hdispatch
    obtain ⟨hproxy, hc, hsource⟩ := parts?_eq_some.mp parts
    obtain ⟨_, hc', hsource'⟩ := parts?_eq_some.mp hsame
    obtain rfl : c = c' := Option.some.inj (hc.symm.trans hc')
    obtain rfl : source = source' := Option.some.inj (hsource.symm.trans hsource')
    rcases SubclassDispatcher.callback?_remember_eq_some hcallback with hold | ⟨hkey, _, rfl⟩
    · exact (h.backed parts dispatch found hold :)
    · rw [hkey]
      exact ⟨backed, own⟩
  · exact h.backed hsame hdispatch hd hcallback

theorem Turn.orderly {w w' : World κ σ ν} (h : w.Turn host identity w')
    (hw : w.Orderly identity) : w'.Orderly identity := by
  have hlater := h.later
  cases h with
  | recorded => exact hw.kept hlater rfl rfl
  | kept leads dispatchers proxies _ => exact hw.kept hlater dispatchers proxies
  | madeDispatcher fresh => exact hw.madeDispatcher fresh host
  | madeProxy fits unused => exact hw.madeProxy fits unused host
  | chose parts dispatch found own named backed =>
      refine hw.chose hlater parts dispatch found (fun hown => named ?_) backed
      exact SubclassDispatcher.kind_of_keeps (own ▸ hown)

theorem Visited.orderly {w : World κ σ ν} (h : w.Visited host identity) : w.Orderly identity := by
  induction h with
  | initial memory => exact .initial memory
  | turn _ turn ih => exact turn.orderly ih
  | @remembered u u' w depth id c m target chain _ built _ found frozen _ ih =>
      have hstep : c.Step host (c.remember (.of m target) chain) :=
        .remembered frozen ⟨_, u, u', built⟩
      have hchange : w.Step host (fun _ => True)
          (w.mapConfiguration id (·.remember (.of m target) chain)) := .configured found hstep
      exact ih.kept hchange.later rfl rfl

end World

/-- A chain that a configuration builds when it is asked to in a visited world. -/
def Configuration.Makes (host : Host κ σ ν) (identity : MethodKey → Prop) (c : Configuration κ)
    (m : MethodSignature) (target : Option TypeInfo) (chain : Chain κ) : Prop :=
  ∃ (depth : Nat) (u u' : World κ σ ν), u.Visited host identity ∧
    (Run.buildChain host (Run.answer host depth) c m target).run u = some (.ok chain, u')

section Making

variable {host : Host κ σ ν} {identity : MethodKey → Prop}

theorem Configuration.Makes.later {c c' : Configuration κ} {m : MethodSignature}
    {target : Option TypeInfo} {chain : Chain κ} (h : c.Makes host identity m target chain)
    (hlater : c.Later c') (hfrozen : c.frozen = true) :
    c'.Makes host identity m target chain := by
  obtain ⟨depth, u, u', hu, hbuilt⟩ := h
  exact ⟨depth, u, u', hu, hlater.buildChain_eq hfrozen host _ m target ▸ hbuilt⟩

/-- A configuration remembers chains only when it is frozen, and only such as it built. -/
theorem World.Visited.remembers {w : World κ σ ν} (h : w.Visited host identity) :
    ∀ {id : ConfigurationId} {c : Configuration κ} {key : ChainKey} {chain : Chain κ},
      w.configurations[id]? = some c → c.cache.find? key = some chain →
      c.frozen = true ∧
        ∃ m target, ChainKey.of m target = key ∧ c.Makes host identity m target chain := by
  induction h with
  | initial memory =>
      intro id c key chain hc
      simp [World.initial] at hc
  | turn _ turn ih =>
      intro id c key chain hc hfound
      cases turn with
      | kept leads _ _ recalls =>
          obtain ⟨c₀, hc₀, hfound₀⟩ := recalls id c key chain hc hfound
          obtain ⟨hfrozen, m, target, hkey, hmakes⟩ := ih hc₀ hfound₀
          obtain ⟨c', hc', hlater⟩ := leads.later.configurations id c₀ hc₀
          obtain rfl : c' = c := Option.some.inj (hc'.symm.trans hc)
          exact ⟨hlater.frozen hfrozen, m, target, hkey, hmakes.later hlater hfrozen⟩
      | _ => exact ih hc hfound
  | @remembered u u' w depth id c m target chain began built _ found frozen _ ih =>
      intro other c' key stored hc hfound
      change (w.configurations.modify id _)[other]? = some c' at hc
      rw [Array.getElem?_modify] at hc
      split at hc
      · rename_i hid
        subst hid
        rw [found] at hc
        cases hc
        have hstep : c.Step host (c.remember (.of m target) chain) :=
          .remembered frozen ⟨_, u, u', built⟩
        refine ⟨frozen, ?_⟩
        rcases Configuration.find?_remember_eq_some hfound with hold | ⟨rfl, rfl⟩
        · obtain ⟨_, m', target', hkey, hmakes⟩ := ih found hold
          exact ⟨m', target', hkey, hmakes.later hstep.later frozen⟩
        · have hmakes : c.Makes host identity m target stored := ⟨depth, u, u', began, built⟩
          exact ⟨m, target, rfl, hmakes.later hstep.later frozen⟩
      · exact ih hc hfound

end Making

end Weaving
