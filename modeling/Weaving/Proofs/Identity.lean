import Weaving.Access
import Weaving.Proofs.Exposure

/-
How calls of identity methods and of other methods are routed.  A proxy of the contract strategy
looks at the kind of a method.  One of the subclass strategy keeps to the callback that was chosen
first for the method's key, and the key does not tell kinds apart: so the proxy answers an identity
method itself unless a method of another kind with the same key was called before, and the other way
round.
-/
namespace Weaving

variable {κ σ ν : Type} {host : Host κ σ ν}

namespace World

/-- What a proxy answers to a method that it keeps to itself. -/
def ownAnswer (w : World κ σ ν) (p : ProxyId) (m : MethodSignature) (arguments : List Value) :
    Option Value :=
  match m.kind with
  | .equals => some (.bool (w.proxyEquals p arguments.head?))
  | .hashCode => some (.word (w.proxyHash p))
  | _ => none

/-- A callback was chosen at some time for a method with a key that had none, and answers for the
proxy itself if the method was to be kept. -/
inductive Chose (host : Host κ σ ν) (w : World κ σ ν) (dispatcher : DispatcherId)
    (key : MethodKey) (callback : Callback κ) : Prop where
  | intro {u : World κ σ ν} {d : SubclassDispatcher κ} {m : MethodSignature}
      (before : Reachable host u) (found : u.dispatchers[dispatcher]? = some d)
      (first : d.callback? m = none) (same : m.key = key) (own : callback.isOwn = d.keeps m)
      (since : (u.mapDispatcher dispatcher (·.remember m callback)).Leads host (fun _ => True) w)

theorem Chose.step {w w' : World κ σ ν} {dispatcher : DispatcherId} {key : MethodKey}
    {callback : Callback κ} (h : w.Chose host dispatcher key callback)
    (step : w.Step host (fun _ => True) w') : w'.Chose host dispatcher key callback := by
  obtain ⟨before, found, first, same, own, since⟩ := h
  exact ⟨before, found, first, same, own, since.trans step.leads⟩

/-- Every callback that a dispatcher remembers was chosen at some time. -/
theorem Reachable.chose {w : World κ σ ν} (h : Reachable host w) :
    ∀ {dispatcher : DispatcherId} {d : SubclassDispatcher κ} {m : MethodSignature}
      {callback : Callback κ}, w.dispatchers[dispatcher]? = some d →
      d.callback? m = some callback → w.Chose host dispatcher m.key callback := by
  induction h with
  | initial memory =>
      intro dispatcher d m callback hd
      cases hd
  | @step w w' before change ih =>
      intro dispatcher d m callback hd hcallback
      have hkept : ∀ {old m' kept}, w.dispatchers[dispatcher]? = some old →
          old.callback? m' = some kept → w'.Chose host dispatcher m'.key kept :=
        fun hold hcallback => (ih hold hcallback).step change
      cases change with
      | @madeDispatcher made fresh =>
          change (w.dispatchers.push made)[dispatcher]? = some d at hd
          rw [Array.getElem?_push] at hd
          split at hd
          · cases hd
            rw [SubclassDispatcher.callback?, fresh] at hcallback
            cases hcallback
          · exact hkept hd hcallback
      | @chose other d₀ id source m₀ chosen found own backed =>
          change (w.dispatchers.modify other _)[dispatcher]? = some d at hd
          rw [Array.getElem?_modify] at hd
          split at hd
          · rename_i hsame
            subst hsame
            rw [found] at hd
            cases hd
            rcases SubclassDispatcher.callback?_remember_eq_some hcallback with
              hkeptOne | ⟨hkey, hnone, rfl⟩
            · exact hkept found hkeptOne
            · rw [hkey]
              exact ⟨before, found, hnone, rfl, own, .refl _⟩
          · exact hkept hd hcallback
      | _ => exact hkept hd hcallback

end World

namespace Run

variable {below : Handler κ σ ν}

/-- The proxy answers itself to the methods that it keeps to itself. -/
theorem identityAnswer_own {m : MethodSignature} {equalsDefined hashDefined : Bool}
    (h : m.isOwn equalsDefined hashDefined = true) (p : ProxyId) (arguments : List Value)
    (w : World κ σ ν) :
    ∃ w', (identityAnswer p m arguments equalsDefined hashDefined).run w =
        some (some (.ok (w.ownAnswer p m arguments)), w') ∧ w.Alike w' := by
  rw [MethodSignature.isOwn] at h
  rw [identityAnswer, World.ownAnswer]
  cases hkind : m.kind with
  | regular =>
      rw [hkind] at h
      cases h
  | equals =>
      rw [hkind] at h
      have hdefined : equalsDefined = false := by simpa using h
      subst hdefined
      exact ⟨w, rfl, .refl w⟩
  | hashCode =>
      rw [hkind] at h
      have hdefined : hashDefined = false := by simpa using h
      subst hdefined
      exact ⟨w, rfl, .refl w⟩
  | finalize => exact ⟨_, rfl, World.alike_record_line w _⟩

theorem identityAnswer_other {p : ProxyId} {m : MethodSignature} {arguments : List Value}
    {equalsDefined hashDefined : Bool} (h : m.isOwn equalsDefined hashDefined = false) :
    (identityAnswer p m arguments equalsDefined hashDefined : Run κ σ ν _) = pure none := by
  rw [MethodSignature.isOwn] at h
  rw [identityAnswer]
  cases hkind : m.kind with
  | regular => rfl
  | finalize =>
      rw [hkind] at h
      cases h
  | equals =>
      rw [hkind] at h
      have hdefined : equalsDefined = true := by simpa using h
      subst hdefined
      rfl
  | hashCode =>
      rw [hkind] at h
      have hdefined : hashDefined = true := by simpa using h
      subst hdefined
      rfl

/-- A callback that answers for the proxy itself does nothing else, whatever the method. -/
theorem perform_own (host : Host κ σ ν) (below : Handler κ σ ν) {callback : Callback κ}
    (h : callback.isOwn = true) (p : ProxyId) (proxy : Proxy) (c : Configuration κ)
    (source : Source κ) (m : MethodSignature) (arguments : List Value) (w : World κ σ ν) :
    ∃ w', (perform host below callback p proxy c source m arguments).run w =
        some (.ok (w.ownAnswer p m arguments), w') ∧ w.Alike w' := by
  have hperform : perform host below callback p proxy c source m arguments =
      identityAnswer p m arguments false false >>= fun own => pure (own.getD (.ok none)) := by
    cases callback with
    | noOverride => rfl
    | proxyEquals => rfl
    | proxyHash => rfl
    | _ => cases h
  rw [hperform]
  cases hown : m.isOwn false false with
  | true =>
      obtain ⟨w', hrun, halike⟩ := identityAnswer_own hown p arguments w
      refine ⟨w', ?_, halike⟩
      rw [StateT.run_bind, hrun]
      rfl
  | false =>
      rw [identityAnswer_other hown]
      have hregular : m.kind = .regular := by
        rw [MethodSignature.isOwn] at hown
        cases hkind : m.kind with
        | regular => rfl
        | _ =>
            rw [hkind] at hown
            cases hown
      refine ⟨w, ?_, .refl w⟩
      rw [World.ownAnswer, hregular]
      rfl

theorem callbackOf_remembered {dispatcher : DispatcherId} {d : SubclassDispatcher κ}
    {id : ConfigurationId} {source : Source κ} {m : MethodSignature} {callback : Callback κ}
    {w : World κ σ ν} (hd : w.dispatchers[dispatcher]? = some d)
    (hcallback : d.callback? m = some callback) :
    (callbackOf host below dispatcher id source m).run w = some (.ok callback, w) := by
  rw [callbackOf, get_bind_run]
  simp only [hd, hcallback]
  rfl

/-- On the first call of a method the callback that is chosen is remembered, unless code that ran in
the meantime had another one chosen. -/
theorem callbackOf_first {dispatcher : DispatcherId} {d d' : SubclassDispatcher κ}
    {id : ConfigurationId} {source : Source κ} {m : MethodSignature} {callback : Callback κ}
    {w v : World κ σ ν} (hd : w.dispatchers[dispatcher]? = some d) (hfirst : d.callback? m = none)
    (haccept : (accept host below d id source m).run w = some (.ok callback, v))
    (hd' : v.dispatchers[dispatcher]? = some d') :
    ∃ line, (callbackOf host below dispatcher id source m).run w =
      some (.ok ((d'.callback? m).getD callback),
        (v.record (.logged line)).mapDispatcher dispatcher (·.remember m callback)) := by
  have hasked : ((v.dispatchers.modify dispatcher (·.remember m callback))[dispatcher]?).bind
      (·.callback? m) = some ((d'.callback? m).getD callback) := by
    rw [Array.getElem?_modify, if_pos rfl, hd']
    exact SubclassDispatcher.callback?_remember_self d' m callback
  rw [callbackOf, get_bind_run]
  simp only [hd, hfirst]
  rw [StateT.run_bind, haccept]
  refine ⟨⟨.trace, "Selected callback " ++ callback.inspect ++ " for " ++ m.text, []⟩, ?_⟩
  change some (Except.ok
    ((((v.dispatchers.modify dispatcher (·.remember m callback))[dispatcher]?).bind
      (·.callback? m)).getD callback), _) = _
  rw [hasked]
  rfl

/-- The proxy answers a call itself: no call begins, and nothing happens besides log lines. -/
def AnswersItself (host : Host κ σ ν) (below : Handler κ σ ν) (p : ProxyId) (m : MethodSignature)
    (arguments : List Value) (w : World κ σ ν) : Prop :=
  ∃ w', (invoke host below p m arguments).run w = some (.ok (w.ownAnswer p m arguments), w') ∧
    w'.calls = w.calls ∧ w'.happened = w.happened

/-- Where a call of a method on a proxy goes. -/
inductive Routed (host : Host κ σ ν) (below : Handler κ σ ν) (p : ProxyId) (proxy : Proxy)
    (m : MethodSignature) (arguments : List Value) (w : World κ σ ν) : Prop where
  /-- By contracts, an identity method that none of them defines: the proxy answers itself. -/
  | contractsKept {w' : World κ σ ν}
      (contracts : proxy.dispatch = .contracts (.of proxy.proxiedTypes))
      (keeps : m.isOwn (proxy.proxiedTypes.any (·.definesEquals))
        (proxy.proxiedTypes.any (·.definesHash)) = true)
      (answered : (invoke host below p m arguments).run w =
        some (.ok (w.ownAnswer p m arguments), w'))
      (only : w.Alike w')
  /-- By contracts, an ordinary method of a type that none of them stands for: it is refused. -/
  | contractsRefused {w' : World κ σ ν}
      (contracts : proxy.dispatch = .contracts (.of proxy.proxiedTypes))
      (regular : m.kind = .regular)
      (foreign : m.declaringType.isRoot = false ∧ proxy.isInstanceOf m.declaringType = false)
      (answered : (invoke host below p m arguments).run w =
        some (.error (.unsupportedMethod m.text), w'))
      (only : w.Alike w')
  /-- By contracts, any other method: the call takes its full course. -/
  | contractsAdvised (contracts : proxy.dispatch = .contracts (.of proxy.proxiedTypes))
      (leaves : m.isOwn (proxy.proxiedTypes.any (·.definesEquals))
        (proxy.proxiedTypes.any (·.definesHash)) = false)
      (advised : Alike ((invoke host below p m arguments).run w)
        ((withProxy p m fun proxy c source =>
          invokeAdvised host below p proxy c source m arguments none).run w))
  /-- By callbacks, an identity method that the target's type does not define, its key called for
  the first time: the proxy answers itself, and remembers to. -/
  | firstKept {dispatcher : DispatcherId} {d : SubclassDispatcher κ} {own : Callback κ}
      {w' : World κ σ ν} (subclass : proxy.dispatch = .subclass dispatcher)
      (found : w.dispatchers[dispatcher]? = some d) (first : d.callback? m = none)
      (keeps : d.keeps m = true) (isOwn : own.isOwn = true)
      (answered : (invoke host below p m arguments).run w =
        some (.ok (w.ownAnswer p m arguments), w'))
      (only : (w.mapDispatcher dispatcher (·.remember m own)).Alike w')
  /-- By callbacks, another method whose key is called for the first time: if its chain can be
  settled, the call goes where the callback says that is remembered from then on. -/
  | firstOther {dispatcher : DispatcherId} {d : SubclassDispatcher κ}
      (subclass : proxy.dispatch = .subclass dispatcher)
      (found : w.dispatchers[dispatcher]? = some d) (first : d.callback? m = none)
      (leaves : d.keeps m = false)
      (ends : ∀ result w', (invoke host below p m arguments).run w = some (result, w') →
        (∃ source e v, (accept host below d proxy.configuration source m).run w =
            some (.error e, v) ∧ result = .error e ∧ v.Alike w') ∨
          ∃ c source v d' callback, v.dispatchers[dispatcher]? = some d' ∧
            d'.callback? m = some callback ∧ v.Chose host dispatcher m.key callback ∧
            (perform host below callback p proxy c source m arguments).run v =
              some (result, w'))
  /-- By callbacks, any method for whose key the proxy remembers to answer itself: it does. -/
  | againOwn {dispatcher : DispatcherId} {d : SubclassDispatcher κ} {own : Callback κ}
      {w' : World κ σ ν} (subclass : proxy.dispatch = .subclass dispatcher)
      (found : w.dispatchers[dispatcher]? = some d) (again : d.callback? m = some own)
      (isOwn : own.isOwn = true) (chosen : w.Chose host dispatcher m.key own)
      (answered : (invoke host below p m arguments).run w =
        some (.ok (w.ownAnswer p m arguments), w'))
      (only : w.Alike w')
  /-- By callbacks, any method for whose key another callback is remembered, an identity method
  among them: the call goes where that one says. -/
  | againOther {dispatcher : DispatcherId} {d : SubclassDispatcher κ} {callback : Callback κ}
      (subclass : proxy.dispatch = .subclass dispatcher)
      (found : w.dispatchers[dispatcher]? = some d) (again : d.callback? m = some callback)
      (other : callback.isOwn = false) (chosen : w.Chose host dispatcher m.key callback)
      (performed : Alike ((invoke host below p m arguments).run w)
        ((withProxy p m fun proxy c source =>
          perform host below callback p proxy c source m arguments).run w))

/-- A call on a proxy is logged and then routed. -/
theorem invoke_run (host : Host κ σ ν) (below : Handler κ σ ν) {p : ProxyId} {proxy : Proxy}
    {w : World κ σ ν} (hproxy : w.proxies[p]? = some proxy) (m : MethodSignature)
    (arguments : List Value) :
    ∃ line, (invoke host below p m arguments).run w =
      (match proxy.dispatch with
        | .contracts d => routeByContracts host below d p m arguments
        | .subclass d => routeBySubclass host below d p m arguments).run
          (w.record (.logged line)) := by
  rw [invoke, get_bind_run]
  simp only [hproxy]
  exact ⟨_, rfl⟩

section Contracts

variable {d : ContractDispatcher} {p : ProxyId} {proxy : Proxy} {c : Configuration κ}
  {source : Source κ} {m : MethodSignature} {w : World κ σ ν}

theorem routeByContracts_kept (host : Host κ σ ν) (below : Handler κ σ ν)
    (hproxy : w.proxies[p]? = some proxy)
    (hc : w.configurations[proxy.configuration]? = some c)
    (hsource : w.sources[c.source]? = some source)
    (hkeeps : m.isOwn d.equalsDefined d.hashDefined = true) (arguments : List Value) :
    ∃ w', (routeByContracts host below d p m arguments).run w =
        some (.ok (w.ownAnswer p m arguments), w') ∧ w.Alike w' := by
  obtain ⟨w', hrun, halike⟩ := identityAnswer_own hkeeps p arguments w
  refine ⟨w', ?_, halike⟩
  rw [routeByContracts, withProxy_run hproxy hc hsource, StateT.run_bind, hrun]
  rfl

theorem routeByContracts_refused (host : Host κ σ ν) (below : Handler κ σ ν)
    (hproxy : w.proxies[p]? = some proxy)
    (hc : w.configurations[proxy.configuration]? = some c)
    (hsource : w.sources[c.source]? = some source) (hregular : m.kind = .regular)
    (hforeign : m.declaringType.isRoot = false ∧ proxy.isInstanceOf m.declaringType = false)
    (arguments : List Value) :
    (routeByContracts host below d p m arguments).run w =
      some (.error (.unsupportedMethod m.text), w) := by
  have hleaves : m.isOwn d.equalsDefined d.hashDefined = false := by
    simp [MethodSignature.isOwn, hregular]
  rw [routeByContracts, withProxy_run hproxy hc hsource, identityAnswer_other hleaves, pure_bind]
  simp only [hregular, hforeign.1, hforeign.2]
  rfl

theorem routeByContracts_advised (host : Host κ σ ν) (below : Handler κ σ ν)
    (hproxy : w.proxies[p]? = some proxy)
    (hc : w.configurations[proxy.configuration]? = some c)
    (hsource : w.sources[c.source]? = some source)
    (hleaves : m.isOwn d.equalsDefined d.hashDefined = false)
    (hours : ¬(m.kind = .regular ∧ m.declaringType.isRoot = false ∧
      proxy.isInstanceOf m.declaringType = false)) (arguments : List Value) :
    (routeByContracts host below d p m arguments).run w =
      (invokeAdvised host below p proxy c source m arguments none).run w := by
  rw [routeByContracts, withProxy_run hproxy hc hsource, identityAnswer_other hleaves, pure_bind]
  simp only
  rw [if_neg]
  simpa [and_assoc] using hours

end Contracts

section Subclass

variable {dispatcher : DispatcherId} {d : SubclassDispatcher κ} {p : ProxyId} {proxy : Proxy}
  {c : Configuration κ} {source : Source κ} {m : MethodSignature} {w : World κ σ ν}

theorem routeBySubclass_remembered (hproxy : w.proxies[p]? = some proxy)
    (hc : w.configurations[proxy.configuration]? = some c)
    (hsource : w.sources[c.source]? = some source) (hd : w.dispatchers[dispatcher]? = some d)
    {callback : Callback κ} (hcallback : d.callback? m = some callback) (arguments : List Value) :
    (routeBySubclass host below dispatcher p m arguments).run w =
      (perform host below callback p proxy c source m arguments).run w := by
  rw [routeBySubclass]
  rw [withProxy_run hproxy hc hsource, StateT.run_bind, callbackOf_remembered hd hcallback]
  rfl

theorem routeBySubclass_kept (host : Host κ σ ν) (below : Handler κ σ ν)
    (hproxy : w.proxies[p]? = some proxy)
    (hc : w.configurations[proxy.configuration]? = some c)
    (hsource : w.sources[c.source]? = some source) (hd : w.dispatchers[dispatcher]? = some d)
    (hfirst : d.callback? m = none) (hkeeps : d.keeps m = true) (arguments : List Value) :
    ∃ own w', own.isOwn = true ∧
      (routeBySubclass host below dispatcher p m arguments).run w =
        some (.ok (w.ownAnswer p m arguments), w') ∧
      (w.mapDispatcher dispatcher (·.remember m own)).Alike w' := by
  obtain ⟨own, hown, haccept⟩ := accept_kept host below hkeeps proxy.configuration source w
  obtain ⟨line, hcallback⟩ := callbackOf_first hd hfirst haccept hd
  obtain ⟨w', hperform, halike⟩ := perform_own host below hown p proxy c source
    m arguments ((w.record (.logged line)).mapDispatcher dispatcher (·.remember m own))
  refine ⟨own, w', hown, ?_, ?_⟩
  · rw [routeBySubclass, withProxy_run hproxy hc hsource, StateT.run_bind, hcallback, hfirst]
    exact hperform
  · have hlogged := (World.alike_record_line w line).map
      (fun u => u.mapDispatcher dispatcher (·.remember m own)) fun _ _ => rfl
    exact hlogged.trans halike

theorem routeBySubclass_other (hbelow : below.Sound host) (hw : World.Reachable host w)
    (hproxy : w.proxies[p]? = some proxy) (hc : w.configurations[proxy.configuration]? = some c)
    (hsource : w.sources[c.source]? = some source) (hd : w.dispatchers[dispatcher]? = some d)
    (hfirst : d.callback? m = none) {arguments : List Value} {result : Result}
    {w' : World κ σ ν}
    (h : (routeBySubclass host below dispatcher p m arguments).run w = some (result, w')) :
    (∃ e, (accept host below d proxy.configuration source m).run w = some (.error e, w') ∧
        result = .error e) ∨
      ∃ v d' callback, v.dispatchers[dispatcher]? = some d' ∧ d'.callback? m = some callback ∧
        v.Chose host dispatcher m.key callback ∧
        (perform host below callback p proxy c source m arguments).run v =
          some (result, w') := by
  rw [routeBySubclass, withProxy_run hproxy hc hsource] at h
  obtain ⟨chosen, v, hv, hperform⟩ := run_bind_eq_some.mp h
  have hreachable : World.Reachable host v :=
    Sound.reachable (callbackOf_sound hbelow (fun _ _ => trivial) dispatcher proxy.configuration
      source m) hv hw
  have hchosen := hv
  rw [callbackOf, get_bind_run] at hv
  simp only [hd, hfirst] at hv
  obtain ⟨accepted, u, haccept, hrest⟩ := run_bind_eq_some.mp hv
  cases accepted with
  | error e =>
      cases hrest
      cases hperform
      exact .inl ⟨e, haccept, rfl⟩
  | ok callback =>
      have hlater : w.Later u :=
        Sound.later (accept_sound hbelow (fun _ _ => trivial) d proxy.configuration source m)
          haccept
      obtain ⟨d', hd', _⟩ := hlater.dispatchers _ d hd
      obtain ⟨line, hrun⟩ := callbackOf_first hd hfirst haccept hd'
      rw [hrun] at hchosen
      cases hchosen
      have hremembers : (u.dispatchers.modify dispatcher (·.remember m callback))[dispatcher]? =
          some (d'.remember m callback) := by
        rw [Array.getElem?_modify, if_pos rfl, hd']
        rfl
      have hself := SubclassDispatcher.callback?_remember_self d' m callback
      exact .inr ⟨_, d'.remember m callback, _, hremembers, hself,
        hreachable.chose hremembers hself, hperform⟩

end Subclass

/-- Calls on a proxy of the contract strategy are routed by the kind of the method. -/
theorem invoke_routed_contracts (hbelow : below.Sound host) {p : ProxyId} {proxy : Proxy}
    {c : Configuration κ} {source : Source κ} {w : World κ σ ν}
    (hproxy : w.proxies[p]? = some proxy) (hc : w.configurations[proxy.configuration]? = some c)
    (hsource : w.sources[c.source]? = some source)
    (hdispatch : proxy.dispatch = .contracts (.of proxy.proxiedTypes)) (m : MethodSignature)
    (arguments : List Value) : Routed host below p proxy m arguments w := by
  obtain ⟨line, hrun⟩ := invoke_run host below hproxy m arguments
  rw [hdispatch] at hrun
  have hlogged := World.alike_record_line w line
  cases hkeeps : m.isOwn (proxy.proxiedTypes.any (·.definesEquals))
      (proxy.proxiedTypes.any (·.definesHash)) with
  | true =>
      obtain ⟨w', hanswered, honly⟩ := routeByContracts_kept host below
        (d := .of proxy.proxiedTypes) (w := w.record (.logged line)) hproxy hc hsource hkeeps
        arguments
      exact .contractsKept hdispatch hkeeps (hrun.trans hanswered) (hlogged.trans honly)
  | false =>
      by_cases hforeign : m.kind = .regular ∧ m.declaringType.isRoot = false ∧
          proxy.isInstanceOf m.declaringType = false
      · have hrefused := routeByContracts_refused host below
          (d := .of proxy.proxiedTypes) (w := w.record (.logged line)) hproxy hc hsource
          hforeign.1 hforeign.2 arguments
        exact .contractsRefused hdispatch hforeign.1 hforeign.2 (hrun.trans hrefused) hlogged
      · have hroute := routeByContracts_advised host below
          (d := .of proxy.proxiedTypes) (w := w.record (.logged line)) hproxy hc hsource hkeeps
          hforeign arguments
        have hblind := Sound.alike (invokeAdvised_sound hbelow (fun _ _ => trivial) p proxy c
          source m arguments none) hlogged
        refine .contractsAdvised hdispatch hkeeps ?_
        rw [hrun, hroute, withProxy_run hproxy hc hsource]
        exact hblind.symm

section Invoke

variable {p : ProxyId} {proxy : Proxy} {c : Configuration κ} {source : Source κ}
  {dispatcher : DispatcherId} {d : SubclassDispatcher κ} {m : MethodSignature} {w : World κ σ ν}

/-- The first call of a method that the proxy keeps to itself. -/
theorem invoke_kept (host : Host κ σ ν) (below : Handler κ σ ν)
    (hproxy : w.proxies[p]? = some proxy) (hc : w.configurations[proxy.configuration]? = some c)
    (hsource : w.sources[c.source]? = some source)
    (hdispatch : proxy.dispatch = .subclass dispatcher)
    (hd : w.dispatchers[dispatcher]? = some d) (hfirst : d.callback? m = none)
    (hkeeps : d.keeps m = true) (arguments : List Value) :
    ∃ own w', own.isOwn = true ∧
      (invoke host below p m arguments).run w = some (.ok (w.ownAnswer p m arguments), w') ∧
      (w.mapDispatcher dispatcher (·.remember m own)).Alike w' := by
  obtain ⟨line, hrun⟩ := invoke_run host below hproxy m arguments
  rw [hdispatch] at hrun
  obtain ⟨own, w', hown, hanswered, honly⟩ := routeBySubclass_kept host below
    (w := w.record (.logged line)) hproxy hc hsource hd hfirst hkeeps arguments
  have hbefore := (World.alike_record_line w line).map
    (fun u => u.mapDispatcher dispatcher (·.remember m own)) fun _ _ => rfl
  exact ⟨own, w', hown, hrun.trans hanswered, hbefore.trans honly⟩

/-- A call of a method for whose key a callback is remembered. -/
theorem invoke_remembered (hbelow : below.Sound host) (hproxy : w.proxies[p]? = some proxy)
    (hc : w.configurations[proxy.configuration]? = some c)
    (hsource : w.sources[c.source]? = some source)
    (hdispatch : proxy.dispatch = .subclass dispatcher)
    (hd : w.dispatchers[dispatcher]? = some d) {callback : Callback κ}
    (hcallback : d.callback? m = some callback) (arguments : List Value) :
    Alike ((invoke host below p m arguments).run w)
      ((perform host below callback p proxy c source m arguments).run w) := by
  obtain ⟨line, hrun⟩ := invoke_run host below hproxy m arguments
  rw [hdispatch] at hrun
  rw [hrun, routeBySubclass_remembered (w := w.record (.logged line)) hproxy hc hsource hd
    hcallback arguments]
  have hblind := Sound.alike (perform_sound hbelow (fun _ _ => trivial) callback p proxy c source
    m arguments) (World.alike_record_line w line)
  exact hblind.symm

/-- A proxy that remembers to answer itself does. -/
theorem invoke_remembered_own (hbelow : below.Sound host) (hproxy : w.proxies[p]? = some proxy)
    (hc : w.configurations[proxy.configuration]? = some c)
    (hsource : w.sources[c.source]? = some source)
    (hdispatch : proxy.dispatch = .subclass dispatcher)
    (hd : w.dispatchers[dispatcher]? = some d) {own : Callback κ}
    (hcallback : d.callback? m = some own) (hown : own.isOwn = true) (arguments : List Value) :
    ∃ w', (invoke host below p m arguments).run w =
        some (.ok (w.ownAnswer p m arguments), w') ∧ w.Alike w' := by
  have halike := invoke_remembered hbelow hproxy hc hsource hdispatch hd hcallback arguments
  obtain ⟨v, hperform, honly⟩ := perform_own host below hown p proxy c source m arguments w
  rw [hperform] at halike
  obtain ⟨w', hanswered, hsame⟩ := halike.eq_some
  exact ⟨w', hanswered, honly.trans hsame.symm⟩

/-- Calls on a proxy of the subclass strategy are routed by what is remembered for the key. -/
theorem invoke_routed_subclass (hbelow : below.Sound host) (hw : World.Reachable host w)
    (hproxy : w.proxies[p]? = some proxy) (hc : w.configurations[proxy.configuration]? = some c)
    (hsource : w.sources[c.source]? = some source)
    (hdispatch : proxy.dispatch = .subclass dispatcher)
    (hd : w.dispatchers[dispatcher]? = some d) (arguments : List Value) :
    Routed host below p proxy m arguments w := by
  cases hcallback : d.callback? m with
  | none =>
      cases hkeeps : d.keeps m with
      | true =>
          obtain ⟨own, w', hown, hanswered, honly⟩ := invoke_kept host below hproxy hc hsource
            hdispatch hd hcallback hkeeps arguments
          exact .firstKept hdispatch hd hcallback hkeeps hown hanswered honly
      | false =>
          refine .firstOther hdispatch hd hcallback hkeeps fun result w' hends => ?_
          obtain ⟨line, hrun⟩ := invoke_run host below hproxy m arguments
          rw [hdispatch] at hrun
          rw [hrun] at hends
          have hline : World.Reachable host (w.record (.logged line)) :=
            hw.step (.recorded fun a ha => by cases ha)
          rcases routeBySubclass_other (w := w.record (.logged line)) hbelow hline hproxy hc
            hsource hd hcallback hends with ⟨e, haccept, rfl⟩ | ⟨v, d', callback, hv⟩
          · have halike := Sound.alike (accept_sound hbelow (fun _ _ => trivial) d
              proxy.configuration source m) (World.alike_record_line w line)
            rw [haccept] at halike
            obtain ⟨v, hv, hafter⟩ := halike.eq_some
            exact .inl ⟨source, e, v, hv, rfl, hafter⟩
          · exact .inr ⟨c, source, v, d', callback, hv⟩
  | some callback =>
      have hchosen := hw.chose hd hcallback
      cases hown : callback.isOwn with
      | true =>
          obtain ⟨w', hanswered, honly⟩ := invoke_remembered_own hbelow hproxy hc hsource
            hdispatch hd hcallback hown arguments
          exact .againOwn hdispatch hd hcallback hown hchosen hanswered honly
      | false =>
          refine .againOther hdispatch hd hcallback hown hchosen ?_
          rw [withProxy_run hproxy hc hsource]
          exact invoke_remembered hbelow hproxy hc hsource hdispatch hd hcallback arguments

/-- Every other callback begins a call before it has a value. -/
theorem perform_begins (hbelow : below.Sound host) {callback : Callback κ}
    (h : callback.isOwn = false) {arguments : List Value} {w' : World κ σ ν}
    {value : Option Value}
    (hrun : (perform host below callback p proxy c source m arguments).run w =
      some (.ok value, w')) : w.calls < w'.calls := by
  cases callback with
  | advised => exact invokeAdvised_begins hbelow p proxy c source m arguments none hrun
  | fixedChain chain =>
      exact invokeAdvised_begins hbelow p proxy c source m arguments (some chain) hrun
  | invokeTarget => exact invokeAdvised_begins hbelow p proxy c source m arguments (some []) hrun
  | dispatchTarget =>
      exact Sound.beginCall_lt (fun call =>
        directCall_sound hbelow (fun _ _ => trivial) p proxy c.source m arguments) hrun
  | noOverride => cases h
  | proxyEquals => cases h
  | proxyHash => cases h

/-- A proxy with a callback for the key of a method answers a call itself exactly if that callback
says so. -/
theorem answersItself_iff (hbelow : below.Sound host) (hproxy : w.proxies[p]? = some proxy)
    (hc : w.configurations[proxy.configuration]? = some c)
    (hsource : w.sources[c.source]? = some source)
    (hdispatch : proxy.dispatch = .subclass dispatcher)
    (hd : w.dispatchers[dispatcher]? = some d) {callback : Callback κ}
    (hcallback : d.callback? m = some callback) (arguments : List Value) :
    AnswersItself host below p m arguments w ↔ callback.isOwn = true := by
  constructor
  · rintro ⟨w', hanswered, hcalls, _⟩
    cases hown : callback.isOwn with
    | true => rfl
    | false =>
        have halike := invoke_remembered hbelow hproxy hc hsource hdispatch hd hcallback arguments
        rw [hanswered] at halike
        obtain ⟨v, hperform, hsame⟩ := halike.symm.eq_some
        have hbegins := perform_begins hbelow hown hperform
        rw [← hsame.calls, hcalls] at hbegins
        exact absurd hbegins (Nat.lt_irrefl _)
  · intro hown
    obtain ⟨w', hanswered, honly⟩ := invoke_remembered_own hbelow hproxy hc hsource hdispatch hd
      hcallback hown arguments
    exact ⟨w', hanswered, honly.calls, honly.2⟩

end Invoke

/-- Where every call on a proxy goes, in every reachable world.  A proxy of the subclass strategy
with a callback for the key of the method answers the call itself exactly if that callback says so,
whatever the kind of the method, and without one if the method is to be kept. -/
theorem invoke_routed (host : Host κ σ ν) (depth : Nat) (p : ProxyId) (proxy : Proxy)
    (m : MethodSignature) (arguments : List Value) (w : World κ σ ν)
    (hw : World.Reachable host w) (hproxy : w.proxies[p]? = some proxy) :
    Routed host (answer host depth) p proxy m arguments w ∧
      ∀ dispatcher d, proxy.dispatch = .subclass dispatcher →
        w.dispatchers[dispatcher]? = some d →
        (d.callback? m = none → d.keeps m = true →
          AnswersItself host (answer host depth) p m arguments w) ∧
        ∀ callback, d.callback? m = some callback →
          (AnswersItself host (answer host depth) p m arguments w ↔ callback.isOwn = true) := by
  have hbelow := answer_sound host depth
  obtain ⟨c, source, hc, hsource, hparts⟩ := hw.wellFormed.fits p proxy hproxy
  constructor
  · cases hdispatch : proxy.dispatch with
    | contracts d =>
        rw [hdispatch] at hparts
        subst hparts
        exact invoke_routed_contracts hbelow hproxy hc hsource hdispatch m arguments
    | subclass dispatcher =>
        rw [hdispatch] at hparts
        obtain ⟨d, hd, _⟩ := hparts
        exact invoke_routed_subclass hbelow hw hproxy hc hsource hdispatch hd arguments
  · intro dispatcher d hdispatch hd
    constructor
    · intro hfirst hkeeps
      obtain ⟨own, w', _, hanswered, honly⟩ := invoke_kept host (answer host depth) hproxy hc
        hsource hdispatch hd hfirst hkeeps arguments
      exact ⟨w', hanswered, honly.calls, honly.2⟩
    · intro callback hcallback
      exact answersItself_iff hbelow hproxy hc hsource hdispatch hd hcallback arguments

section Collision

/-- Targets that tell that they were reached. -/
def reachingHost : Host Unit Unit Unit :=
  { Host.idle with target := fun _ _ _ _ => return .ok (some (.text "reached")) }

def collisionType : TypeInfo := ⟨2, "Service", [], false, false, false⟩

/-- An ordinary method with the key of the finalizer. -/
def ordinaryFinalize : MethodSignature := { declaringType := .root, name := "finalize" }

/-- Makes a subclass proxy of one target and calls the ordinary method on it. -/
def collisionSetup : Code Unit Unit Unit Result := do
  let target ← Code.ask (.newTarget collisionType ())
  let source ← Code.ask (.newSource (.singleton target collisionType))
  let _ ← Code.ask (.makeProxy { source := some source })
  Code.ask (.invoke 0 ordinaryFinalize [])

def collisionWorld : World Unit Unit Unit :=
  worldAfter reachingHost 1 collisionSetup (.initial ())

/-- After a call of an ordinary method with its key the finalizer reaches the target. -/
theorem invoke_routed_collision :
    ∃ proxy, collisionWorld.proxies[0]? = some proxy ∧
      Routed reachingHost (answer reachingHost 1) 0 proxy .finalizer [] collisionWorld ∧
      ¬ AnswersItself reachingHost (answer reachingHost 1) 0 .finalizer [] collisionWorld ∧
      ((invoke reachingHost (answer reachingHost 1) 0 .finalizer []).run collisionWorld).map
        (·.1.toOption) = some (some (some (.text "reached"))) := by
  have hreachable : World.Reachable reachingHost collisionWorld :=
    worldAfter_reachable (.initial ()) 1 collisionSetup
  have hmade : (collisionWorld.proxies[0]?).map (·.dispatch) = some (.subclass 0) := by
    decide +kernel
  have hremembers : ((collisionWorld.dispatchers[0]?).bind (·.callback? .finalizer)).map (·.isOwn) =
      some false := by decide +kernel
  obtain ⟨proxy, hproxy, hdispatch⟩ := Option.map_eq_some_iff.mp hmade
  obtain ⟨callback, hcallback, hother⟩ := Option.map_eq_some_iff.mp hremembers
  obtain ⟨d, hd, hcallback⟩ := Option.bind_eq_some_iff.mp hcallback
  obtain ⟨hrouted, hanswers⟩ := invoke_routed reachingHost 1 0 proxy .finalizer [] collisionWorld
    hreachable hproxy
  refine ⟨proxy, hproxy, hrouted, fun hanswered => ?_, by decide +kernel⟩
  rw [((hanswers 0 d hdispatch hd).2 callback hcallback).mp hanswered] at hother
  cases hother

end Collision

end Run

end Weaving
