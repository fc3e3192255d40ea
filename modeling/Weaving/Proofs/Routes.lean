import Weaving.Proofs.Identity

/-
Calls on proxies in two parts: deciding where a call goes, and sending it there.  Deciding looks at
the strategy, at the contracts or at the callback of the method; it may build a chain, but it runs
none of it and takes no target.  Everything that a call does with interceptors and targets comes
after the decision.
-/
namespace Weaving

variable {κ σ ν : Type}

/-- Where a call on a proxy goes. -/
inductive Route (κ : Type) where
  /-- It has its result already. -/
  | answered (result : Result)
  /-- Nowhere: the chain that its callback depends on could not be built. -/
  | unbuilt (e : AopError)
  /-- It takes its full course, the chain being known beforehand or not. -/
  | advised (proxy : Proxy) (c : Configuration κ) (source : Source κ) (fixed : Option (Chain κ))
  /-- It reaches the target of a static source at once. -/
  | direct (proxy : Proxy) (c : Configuration κ) (source : Source κ)

/-- A proxy with its configuration and its source. -/
def World.parts? (w : World κ σ ν) (p : ProxyId) : Option (Proxy × Configuration κ × Source κ) :=
  (w.proxies[p]?).bind fun proxy =>
    (w.configurations[proxy.configuration]?).bind fun c =>
      (w.sources[c.source]?).map fun source => (proxy, c, source)

theorem World.parts?_eq_some {w : World κ σ ν} {p : ProxyId} {proxy : Proxy}
    {c : Configuration κ} {source : Source κ} :
    w.parts? p = some (proxy, c, source) ↔
      w.proxies[p]? = some proxy ∧ w.configurations[proxy.configuration]? = some c ∧
        w.sources[c.source]? = some source := by
  simp only [World.parts?, Option.bind_eq_some_iff, Option.map_eq_some_iff, Prod.mk.injEq]
  constructor
  · rintro ⟨proxy, hproxy, c, hc, source, hsource, rfl, rfl, rfl⟩
    exact ⟨hproxy, hc, hsource⟩
  · rintro ⟨hproxy, hc, hsource⟩
    exact ⟨proxy, hproxy, c, hc, source, hsource, rfl, rfl, rfl⟩

namespace Run

variable (host : Host κ σ ν) (below : Handler κ σ ν)

/-- Where a callback sends a call. -/
def callbackRoute (callback : Callback κ) (p : ProxyId) (proxy : Proxy) (c : Configuration κ)
    (source : Source κ) (m : MethodSignature) (arguments : List Value) : Run κ σ ν (Route κ) := do
  match callback with
  | .noOverride | .proxyEquals | .proxyHash =>
    return .answered ((← identityAnswer p m arguments false false).getD (.ok none))
  | .advised => return .advised proxy c source none
  | .fixedChain chain => return .advised proxy c source (some chain)
  | .invokeTarget => return .advised proxy c source (some [])
  | .dispatchTarget => return .direct proxy c source

/-- Where a call goes that is routed by contracts. -/
def contractRoute (d : ContractDispatcher) (p : ProxyId) (m : MethodSignature)
    (arguments : List Value) : Run κ σ ν (Route κ) := do
  match (← get).parts? p with
  | none => return .answered (.error (.noTarget m.text))
  | some (proxy, c, source) =>
    match ← identityAnswer p m arguments d.equalsDefined d.hashDefined with
    | some result => return .answered result
    | none =>
      if m.kind = .regular && !m.declaringType.isRoot && !proxy.isInstanceOf m.declaringType then
        return .answered (.error (.unsupportedMethod m.text))
      else return .advised proxy c source none

/-- Where a call goes that is routed by the callback of its method. -/
def subclassRoute (dispatcher : DispatcherId) (p : ProxyId) (m : MethodSignature)
    (arguments : List Value) : Run κ σ ν (Route κ) := do
  match (← get).parts? p with
  | none => return .answered (.error (.noTarget m.text))
  | some (proxy, c, source) =>
    match ← callbackOf host below dispatcher proxy.configuration source m with
    | .error e => return .unbuilt e
    | .ok callback => callbackRoute callback p proxy c source m arguments

/-- Where a call on a proxy goes. -/
def route (p : ProxyId) (m : MethodSignature) (arguments : List Value) : Run κ σ ν (Route κ) := do
  match (← get).proxies[p]? with
  | none => return .answered (.error (.noTarget m.text))
  | some proxy =>
    trace ("Proxy (" ++ proxy.strategy.name ++ ") dispatching " ++ m.text)
    match proxy.dispatch with
    | .contracts d => contractRoute d p m arguments
    | .subclass d => subclassRoute host below d p m arguments

/-- Sends a call where it goes. -/
def follow (p : ProxyId) (m : MethodSignature) (arguments : List Value) :
    Route κ → Run κ σ ν Result
  | .answered result => return result
  | .unbuilt e => return .error e
  | .advised proxy c source fixed =>
    invokeAdvised host below p proxy c source m arguments fixed
  | .direct proxy c _ => dispatchTarget host below p proxy c.source m arguments

variable {host below}

theorem withProxy_eq (p : ProxyId) (m : MethodSignature)
    (body : Proxy → Configuration κ → Source κ → Run κ σ ν Result) :
    withProxy p m body = (do
      match (← get).parts? p with
      | none => return .error (.noTarget m.text)
      | some (proxy, c, source) => body proxy c source) := by
  unfold withProxy
  congr
  funext w
  simp only [World.parts?]
  cases w.proxies[p]? with
  | none => rfl
  | some proxy =>
      simp only [Option.bind_some]
      cases w.configurations[proxy.configuration]? with
      | none => rfl
      | some c =>
          simp only [Option.bind_some]
          cases w.sources[c.source]? with
          | none => rfl
          | some source => rfl

theorem perform_eq (callback : Callback κ) (p : ProxyId) (proxy : Proxy) (c : Configuration κ)
    (source : Source κ) (m : MethodSignature) (arguments : List Value) :
    perform host below callback p proxy c source m arguments =
      callbackRoute callback p proxy c source m arguments >>=
        follow host below p m arguments := by
  cases callback with
  | advised => rfl
  | fixedChain chain => rfl
  | invokeTarget => rfl
  | dispatchTarget => rfl
  | _ =>
      unfold perform callbackRoute
      rw [bind_assoc]
      rfl

/-- Routing by contracts decides first and sends the call off then. -/
theorem routeByContracts_eq (d : ContractDispatcher) (p : ProxyId) (m : MethodSignature)
    (arguments : List Value) :
    routeByContracts host below d p m arguments =
      contractRoute d p m arguments >>= follow host below p m arguments := by
  rw [routeByContracts, withProxy_eq, contractRoute, bind_assoc]
  congr
  funext w
  cases w.parts? p with
  | none => rfl
  | some parts =>
      obtain ⟨proxy, c, source⟩ := parts
      dsimp only
      rw [bind_assoc]
      congr
      funext own
      cases own with
      | some result => rfl
      | none =>
          dsimp only
          split
          · rfl
          · rfl

/-- Routing by callbacks decides first and sends the call off then. -/
theorem routeBySubclass_eq (dispatcher : DispatcherId) (p : ProxyId) (m : MethodSignature)
    (arguments : List Value) :
    routeBySubclass host below dispatcher p m arguments =
      subclassRoute host below dispatcher p m arguments >>= follow host below p m arguments := by
  rw [routeBySubclass, withProxy_eq, subclassRoute, bind_assoc]
  congr
  funext w
  cases w.parts? p with
  | none => rfl
  | some parts =>
      obtain ⟨proxy, c, source⟩ := parts
      dsimp only
      rw [bind_assoc]
      congr
      funext chosen
      cases chosen with
      | error e => rfl
      | ok callback => exact perform_eq callback p proxy c source m arguments

/-- A call on a proxy is a decision where it goes, and then going there. -/
theorem invoke_eq (p : ProxyId) (m : MethodSignature) (arguments : List Value) :
    invoke host below p m arguments =
      route host below p m arguments >>= follow host below p m arguments := by
  rw [invoke, route, bind_assoc]
  congr
  funext w
  cases w.proxies[p]? with
  | none => rfl
  | some proxy =>
      dsimp only
      rw [bind_assoc]
      congr
      funext _
      cases proxy.dispatch with
      | contracts d => exact routeByContracts_eq d p m arguments
      | subclass d => exact routeBySubclass_eq d p m arguments

section Soundness

variable {allowed : Act → Prop} {begun : Nat}

end Soundness

/-- How it was decided where a call goes, and what the world was like then. -/
inductive Decided (host : Host κ σ ν) (below : Handler κ σ ν) (p : ProxyId) (m : MethodSignature)
    (arguments : List Value) (w : World κ σ ν) : Route κ → World κ σ ν → Prop where
  /-- There is no such proxy. -/
  | lost {v : World κ σ ν} (missing : w.parts? p = none) (only : w.Alike v) :
      Decided host below p m arguments w (.answered (.error (.noTarget m.text))) v
  /-- By contracts, the proxy answers itself. -/
  | kept {proxy : Proxy} {c : Configuration κ} {source : Source κ} {d : ContractDispatcher}
      {v : World κ σ ν} (parts : w.parts? p = some (proxy, c, source))
      (dispatch : proxy.dispatch = .contracts d)
      (keeps : m.isOwn d.equalsDefined d.hashDefined = true) (only : w.Alike v) :
      Decided host below p m arguments w (.answered (.ok (w.ownAnswer p m arguments))) v
  /-- By contracts, the method belongs to none of them. -/
  | refused {proxy : Proxy} {c : Configuration κ} {source : Source κ} {d : ContractDispatcher}
      {v : World κ σ ν} (parts : w.parts? p = some (proxy, c, source))
      (dispatch : proxy.dispatch = .contracts d) (regular : m.kind = .regular)
      (foreign : m.declaringType.isRoot = false ∧ proxy.isInstanceOf m.declaringType = false)
      (only : w.Alike v) :
      Decided host below p m arguments w (.answered (.error (.unsupportedMethod m.text))) v
  /-- By contracts, any other method. -/
  | contracts {proxy : Proxy} {c : Configuration κ} {source : Source κ} {d : ContractDispatcher}
      {v : World κ σ ν} (parts : w.parts? p = some (proxy, c, source))
      (dispatch : proxy.dispatch = .contracts d)
      (leaves : m.isOwn d.equalsDefined d.hashDefined = false) (only : w.Alike v) :
      Decided host below p m arguments w (.advised proxy c source none) v
  /-- By callbacks, none could be chosen. -/
  | unbuilt {proxy : Proxy} {c : Configuration κ} {source : Source κ} {dispatcher : DispatcherId}
      {e : AopError} {u v : World κ σ ν} (parts : w.parts? p = some (proxy, c, source))
      (dispatch : proxy.dispatch = .subclass dispatcher) (only : w.Alike u)
      (choosing : (callbackOf host below dispatcher proxy.configuration source m).run u =
        some (.error e, v)) :
      Decided host below p m arguments w (.unbuilt e) v
  /-- By callbacks, the one of the method decides. -/
  | called {proxy : Proxy} {c : Configuration κ} {source : Source κ} {dispatcher : DispatcherId}
      {callback : Callback κ} {r : Route κ} {u x v : World κ σ ν}
      (parts : w.parts? p = some (proxy, c, source))
      (dispatch : proxy.dispatch = .subclass dispatcher) (only : w.Alike u)
      (chosen : (callbackOf host below dispatcher proxy.configuration source m).run u =
        some (.ok callback, x))
      (performed : (callbackRoute callback p proxy c source m arguments).run x = some (r, v)) :
      Decided host below p m arguments w r v

section Deciding

variable {p : ProxyId} {m : MethodSignature} {arguments : List Value} {w v : World κ σ ν}

theorem parts?_record (w : World κ σ ν) (e : Event ν) : (w.record e).parts? p = w.parts? p := rfl

theorem parts?_of_proxy {proxy : Proxy} (hproxy : w.proxies[p]? = some proxy) :
    w.parts? p = none ∨ ∃ c source, w.parts? p = some (proxy, c, source) := by
  rcases hparts : w.parts? p with _ | ⟨found, c, source⟩
  · exact .inl rfl
  · obtain ⟨hfound, _, _⟩ := World.parts?_eq_some.mp hparts
    obtain rfl : found = proxy := Option.some.inj (hfound.symm.trans hproxy)
    exact .inr ⟨c, source, rfl⟩

theorem contractRoute_decided {proxy : Proxy} {d : ContractDispatcher} {line : LogLine}
    {r : Route κ} (hproxy : w.proxies[p]? = some proxy) (hdispatch : proxy.dispatch = .contracts d)
    (h : (contractRoute d p m arguments).run (w.record (.logged line)) = some (r, v)) :
    Decided host below p m arguments w r v := by
  have hline := World.alike_record_line w line
  rw [contractRoute, get_bind_run, parts?_record] at h
  rcases parts?_of_proxy hproxy with hparts | ⟨c, source, hparts⟩
  · simp only [hparts] at h
    cases h
    exact .lost hparts hline
  · simp only [hparts] at h
    by_cases hkeeps : m.isOwn d.equalsDefined d.hashDefined = true
    · obtain ⟨x, hanswer, honly⟩ := identityAnswer_own hkeeps p arguments
        (w.record (.logged line))
      rw [StateT.run_bind, hanswer] at h
      cases h
      exact .kept hparts hdispatch hkeeps (hline.trans honly)
    · have hleaves : m.isOwn d.equalsDefined d.hashDefined = false := by simpa using hkeeps
      rw [identityAnswer_other hleaves, pure_bind] at h
      simp only at h
      split at h
      · rename_i hforeign
        cases h
        simp only [Bool.and_eq_true, decide_eq_true_eq, Bool.not_eq_true'] at hforeign
        exact .refused hparts hdispatch hforeign.1.1 ⟨hforeign.1.2, hforeign.2⟩ hline
      · cases h
        exact .contracts hparts hdispatch hleaves hline

theorem subclassRoute_decided {proxy : Proxy} {dispatcher : DispatcherId} {line : LogLine}
    {r : Route κ} (hproxy : w.proxies[p]? = some proxy)
    (hdispatch : proxy.dispatch = .subclass dispatcher)
    (h : (subclassRoute host below dispatcher p m arguments).run (w.record (.logged line)) =
      some (r, v)) : Decided host below p m arguments w r v := by
  have hline := World.alike_record_line w line
  rw [subclassRoute, get_bind_run, parts?_record] at h
  rcases parts?_of_proxy hproxy with hparts | ⟨c, source, hparts⟩
  · simp only [hparts] at h
    cases h
    exact .lost hparts hline
  · simp only [hparts] at h
    obtain ⟨chosen, x, hchosen, h⟩ := run_bind_eq_some.mp h
    rcases chosen with e | callback
    · cases h
      exact .unbuilt hparts hdispatch hline hchosen
    · exact .called hparts hdispatch hline hchosen h

/-- Where a call goes was decided in one of these ways. -/
theorem route_decided {r : Route κ} (h : (route host below p m arguments).run w = some (r, v)) :
    Decided host below p m arguments w r v := by
  rw [route, get_bind_run] at h
  rcases hproxy : w.proxies[p]? with _ | proxy
  · simp only [hproxy] at h
    cases h
    have hparts : w.parts? p = none := by simp [World.parts?, hproxy]
    exact .lost hparts (.refl w)
  · simp only [hproxy] at h
    obtain ⟨_, u, htrace, h⟩ := run_bind_eq_some.mp h
    cases htrace
    rcases hdispatch : proxy.dispatch with d | dispatcher
    · rw [hdispatch] at h
      exact contractRoute_decided hproxy hdispatch h
    · rw [hdispatch] at h
      exact subclassRoute_decided hproxy hdispatch h

/-- Where each callback sends a call. -/
theorem callbackRoute_eq_some {callback : Callback κ} {proxy : Proxy} {c : Configuration κ}
    {source : Source κ} {r : Route κ}
    (h : (callbackRoute callback p proxy c source m arguments).run w = some (r, v)) :
    (callback.isOwn = true ∧ r = .answered (.ok (w.ownAnswer p m arguments)) ∧ w.Alike v) ∨
      (callback = .advised ∧ r = .advised proxy c source none ∧ v = w) ∨
      (∃ chain, callback = .fixedChain chain ∧ r = .advised proxy c source (some chain) ∧ v = w) ∨
      (callback = .invokeTarget ∧ r = .advised proxy c source (some []) ∧ v = w) ∨
      (callback = .dispatchTarget ∧ r = .direct proxy c source ∧ v = w) := by
  by_cases hown : callback.isOwn = true
  · -- the answer is the same whatever the user's code is
    obtain ⟨w', hperform, honly⟩ := perform_own (Host.idle : Host κ σ ν) (answer Host.idle 0) hown
      p proxy c source m arguments w
    rw [perform_eq, StateT.run_bind, h] at hperform
    have hanswered : ∃ result, r = .answered result := by
      cases callback with
      | noOverride | proxyEquals | proxyHash =>
          obtain ⟨own, u, _, hend⟩ := run_bind_eq_some.mp h
          cases hend
          exact ⟨_, rfl⟩
      | _ => cases hown
    obtain ⟨result, rfl⟩ := hanswered
    cases hperform
    exact .inl ⟨hown, rfl, honly⟩
  · cases callback with
    | advised =>
        cases h
        exact .inr (.inl ⟨rfl, rfl, rfl⟩)
    | fixedChain chain =>
        cases h
        exact .inr (.inr (.inl ⟨chain, rfl, rfl, rfl⟩))
    | invokeTarget =>
        cases h
        exact .inr (.inr (.inr (.inl ⟨rfl, rfl, rfl⟩)))
    | dispatchTarget =>
        cases h
        exact .inr (.inr (.inr (.inr ⟨rfl, rfl, rfl⟩)))
    | _ => exact absurd rfl hown

end Deciding

end Run

end Weaving
