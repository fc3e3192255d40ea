import Weaving.Proofs.AgreementAtCalls

/-
Deciding where a call goes does the same under two ways of answering requests, and it goes there with
the proxy's own parts.  A callback that a proxy chooses in a visited world, or chose before, is backed
by the proxy's configuration; so the target of a proxy that is to be exposed is never reached at once.
-/
namespace Weaving

variable {κ σ ν α : Type} {host : Host κ σ ν} {identity : MethodKey → Prop} {guards : Prop}
  {slot within : Option Value → Prop} {below below' : Handler κ σ ν}

/-- Whether the calls on a proxy are to expose it. -/
def World.exposes (w : World κ σ ν) (p : ProxyId) : Bool :=
  (w.configurationOf? p).any (·.flags.exposeProxy)

theorem World.exposes_of_parts {w : World κ σ ν} {p : ProxyId} {proxy : Proxy}
    {c : Configuration κ} {source : Source κ} (h : w.parts? p = some (proxy, c, source)) :
    w.exposes p = c.flags.exposeProxy := by
  obtain ⟨hproxy, hc, _⟩ := World.parts?_eq_some.mp h
  simp [World.exposes, World.configurationOf?, hproxy, hc]

theorem World.Later.exposes {w w' : World κ σ ν} (h : w.Later w') {p : ProxyId} {proxy : Proxy}
    {c : Configuration κ} {source : Source κ} (hparts : w.parts? p = some (proxy, c, source)) :
    w'.exposes p = w.exposes p := by
  obtain ⟨c', _, hparts', hlater⟩ := h.parts hparts
  rw [exposes_of_parts hparts, exposes_of_parts hparts', hlater.flags]

/-- A route on which a call goes as it should, given whether its proxy is to be exposed. -/
def Route.Heeds (exposed : Bool) : Route κ → Prop
  | .advised _ c _ _ => c.flags.exposeProxy = exposed
  | .direct _ _ _ => exposed = false
  | _ => True

/-- A dispatcher was made for a configuration if a later one was. -/
theorem SubclassDispatcher.MadeFor.before {d d' : SubclassDispatcher κ} {c : Configuration κ}
    {source : Source κ} {change : Pool → Pool} (h : d'.MadeFor c (source.mapPool change))
    (hlater : d.Later d') : d.MadeFor c source := by
  simpa [MadeFor, hlater.targetType, hlater.fixedChains] using h

namespace Run

section Choosing

variable {p : ProxyId} {proxy : Proxy} {c : Configuration κ} {source : Source κ}
  {dispatcher : DispatcherId} {m : MethodSignature} {w v : World κ σ ν}

theorem identityAnswer_agree (p : ProxyId) (m : MethodSignature) (arguments : List Value)
    (equalsDefined hashDefined : Bool) :
    Agree (World.Inside host identity slot)
      (identityAnswer p m arguments equalsDefined hashDefined : Run κ σ ν (Option Result))
      (identityAnswer p m arguments equalsDefined hashDefined) := by
  unfold identityAnswer
  split
  · split
    · exact .pure _
    · exact .get_bind fun w => .pure _
  · split
    · exact .pure _
    · exact .get_bind fun w => .pure _
  · exact (Agree.trace _).bind fun _ => .pure _
  · exact .pure _

theorem accept_agree (h : Accord host identity guards slot below below')
    (d : SubclassDispatcher κ) (id : ConfigurationId) (source : Source κ) (m : MethodSignature) :
    Agree (World.Inside host identity slot) (accept host below d id source m)
      (accept host below' d id source m) := by
  unfold accept
  split
  · exact .pure _
  · split
    · exact .pure _
    · split
      · exact .pure _
      · refine .get_bind fun w => ?_
        split
        · exact .pure _
        · apply (chainFor_agree h id m _).bind
          intro found
          rcases found with e | chain
          · exact .pure _
          · exact .pure _

/-- A callback that was chosen for a method of a proxy may be remembered for it. -/
theorem accept_turn (hbelow : below.Sound host) {d : SubclassDispatcher κ} {callback : Callback κ}
    (hparts : w.parts? p = some (proxy, c, source))
    (hdispatch : proxy.dispatch = .subclass dispatcher)
    (hd : w.dispatchers[dispatcher]? = some d) (hnamed : m.kind ≠ .regular → identity m.key)
    (hv : v.Visited host identity)
    (h : (accept host below d proxy.configuration source m).run w = some (.ok callback, v)) :
    v.Turn host identity (v.mapDispatcher dispatcher (·.remember m callback)) := by
  have hlater : w.Later v :=
    Sound.later (accept_sound hbelow (fun _ _ => trivial) d proxy.configuration source m) h
  obtain ⟨c', change, hparts', _⟩ := hlater.parts hparts
  obtain ⟨d₁, hd₁, hdlater⟩ := hlater.dispatchers dispatcher d hd
  obtain ⟨d₂, hd₂, hmade⟩ := hv.orderly.madeFor hparts' hdispatch
  obtain rfl : d₁ = d₂ := Option.some.inj (hd₁.symm.trans hd₂)
  have hbacked := accept_backed hbelow h (World.parts?_eq_some.mp hparts').2.1
    (hmade.before hdlater)
  have hkeeps : callback.isOwn = d₁.keeps m := by
    rw [accept_own h, SubclassDispatcher.keeps, SubclassDispatcher.keeps, hdlater.targetType]
  refine .chose hparts' hdispatch hd₁ hkeeps hnamed ?_
  rw [hdlater.targetType]
  exact hbacked.later (.refl c') change

theorem callbackOf_agreeAt (h : Accord host identity guards slot below below')
    (hw : w.Inside host identity slot) (hparts : w.parts? p = some (proxy, c, source))
    (hdispatch : proxy.dispatch = .subclass dispatcher)
    (hnamed : m.kind ≠ .regular → identity m.key) :
    AgreeAt (World.Inside host identity slot)
      (callbackOf host below dispatcher proxy.configuration source m)
      (callbackOf host below' dispatcher proxy.configuration source m) w := by
  refine .get_bind ?_
  split
  · exact .pure _ hw
  · rename_i d hd
    split
    · exact .pure _ hw
    · apply (accept_agree h d proxy.configuration source m w hw).bind
      intro chosen v hv hinside
      rcases chosen with e | callback
      · exact .pure _ hinside
      · have hturn := accept_turn h.sound hparts hdispatch hd hnamed hinside.visited hv
        refine (AgreeAt.modify (hinside.record _)).bind fun _ v' hv' _ => ?_
        cases hv'
        have hremembered := (hinside.turn hturn).record
          (.logged ⟨.trace, "Selected callback " ++ callback.inspect ++ " for " ++ m.text, []⟩)
        exact (AgreeAt.modify hremembered).bind fun _ v' _ hv' => .get_bind (.pure _ hv')

/-- The callback by which a call is routed is the one remembered from then on. -/
theorem callbackOf_remembers (hbelow : below.Sound host) {d : SubclassDispatcher κ}
    {id : ConfigurationId} {callback : Callback κ} (hd : w.dispatchers[dispatcher]? = some d)
    (h : (callbackOf host below dispatcher id source m).run w = some (.ok callback, v)) :
    ∃ d', v.dispatchers[dispatcher]? = some d' ∧ d'.callback? m = some callback := by
  rcases hcallback : d.callback? m with _ | remembered
  · have hfirst := h
    rw [callbackOf, get_bind_run] at hfirst
    simp only [hd, hcallback] at hfirst
    obtain ⟨chosen, u, haccept, hrest⟩ := run_bind_eq_some.mp hfirst
    rcases chosen with e | chosen
    · cases hrest
    · have hlater : w.Later u :=
        Sound.later (accept_sound hbelow (fun _ _ => trivial) d id source m) haccept
      obtain ⟨d', hd', _⟩ := hlater.dispatchers dispatcher d hd
      obtain ⟨line, hrun⟩ := callbackOf_first hd hcallback haccept hd'
      cases hrun.symm.trans h
      refine ⟨d'.remember m chosen, ?_, SubclassDispatcher.callback?_remember_self d' m chosen⟩
      change (u.dispatchers.modify dispatcher _)[dispatcher]? = _
      rw [Array.getElem?_modify, if_pos rfl, hd']
      rfl
  · cases (callbackOf_remembered hd hcallback).symm.trans h
    exact ⟨d, hd, hcallback⟩

/-- What is known of a callback of a proxy when a call is routed by it. -/
structure Chosen (identity : MethodKey → Prop) (v : World κ σ ν) (p : ProxyId) (proxy : Proxy)
    (source : Source κ) (m : MethodSignature) (callback : Callback κ) (c : Configuration κ) :
    Prop where
  configuration : v.configurations[proxy.configuration]? = some c
  exposes : v.exposes p = c.flags.exposeProxy
  backed : ∃ type, source.type = some type ∧ callback.Backed c source type m.key
  own : callback.isOwn = true → identity m.key

theorem callbackOf_chosen (h : Accord host identity guards slot below below')
    (hw : w.Inside host identity slot) (hparts : w.parts? p = some (proxy, c, source))
    (hdispatch : proxy.dispatch = .subclass dispatcher)
    (hnamed : m.kind ≠ .regular → identity m.key) {callback : Callback κ}
    (hrun : (callbackOf host below dispatcher proxy.configuration source m).run w =
      some (.ok callback, v)) :
    ∃ c', c.Later c' ∧ Chosen identity v p proxy source m callback c' := by
  have hvisited := ((callbackOf_agreeAt h hw hparts hdispatch hnamed).ends hrun).visited
  have hlater : w.Later v := Sound.later (callbackOf_sound h.sound (fun _ _ => trivial) dispatcher
    proxy.configuration source m) hrun
  obtain ⟨c', change, hparts', hclater⟩ := hlater.parts hparts
  obtain ⟨d, hd, hmade⟩ := hw.visited.orderly.madeFor hparts hdispatch
  obtain ⟨d', hd', hcallback⟩ := callbackOf_remembers h.sound hd hrun
  obtain ⟨d'', hd'', hdlater⟩ := hlater.dispatchers dispatcher d hd
  obtain rfl : d'' = d' := Option.some.inj (hd''.symm.trans hd')
  obtain ⟨hbacked, hown⟩ := hvisited.orderly.backed hparts' hdispatch hd' hcallback
  refine ⟨c', hclater, (World.parts?_eq_some.mp hparts').2.1,
    World.exposes_of_parts hparts', ⟨d.targetType, hmade.1, ?_⟩, hown⟩
  rw [hdlater.targetType] at hbacked
  cases callback with
  | dispatchTarget => simpa [Callback.Backed] using hbacked
  | _ => exact hbacked

end Choosing

section Routing

variable {p : ProxyId} {m : MethodSignature} {arguments : List Value} {w v : World κ σ ν}

theorem callbackRoute_agree (callback : Callback κ) (p : ProxyId) (proxy : Proxy)
    (c : Configuration κ) (source : Source κ) (m : MethodSignature) (arguments : List Value) :
    Agree (World.Inside host identity slot)
      (callbackRoute callback p proxy c source m arguments : Run κ σ ν (Route κ))
      (callbackRoute callback p proxy c source m arguments) := by
  cases callback with
  | noOverride | proxyEquals | proxyHash =>
      exact (identityAnswer_agree p m arguments false false).bind fun _ => .pure _
  | _ => exact .pure _

theorem contractRoute_agree (d : ContractDispatcher) (p : ProxyId) (m : MethodSignature)
    (arguments : List Value) :
    Agree (World.Inside host identity slot)
      (contractRoute d p m arguments : Run κ σ ν (Route κ)) (contractRoute d p m arguments) := by
  refine .get_bind fun w => ?_
  split
  · exact .pure _
  · refine (identityAnswer_agree p m arguments _ _).bind fun own => ?_
    rcases own with _ | result
    · dsimp only
      split
      · exact .pure _
      · exact .pure _
    · exact .pure _

theorem contractRoute_heeds {d : ContractDispatcher} {r : Route κ}
    (h : (contractRoute d p m arguments).run w = some (r, v)) : r.Heeds (v.exposes p) := by
  rw [contractRoute, get_bind_run] at h
  rcases hparts : w.parts? p with _ | ⟨proxy, c, source⟩
  · simp only [hparts] at h
    cases h
    trivial
  · simp only [hparts] at h
    by_cases hkeeps : m.isOwn d.equalsDefined d.hashDefined = true
    · obtain ⟨x, hanswer, _⟩ := identityAnswer_own hkeeps p arguments w
      rw [run_bind_of_eq_some hanswer] at h
      cases h
      trivial
    · rw [identityAnswer_other (Bool.eq_false_iff.mpr hkeeps), pure_bind] at h
      simp only at h
      split at h
      · cases h
        trivial
      · cases h
        exact (World.exposes_of_parts hparts).symm

theorem subclassRoute_agreeAt (h : Accord host identity guards slot below below')
    (hw : w.Inside host identity slot) {proxy : Proxy} {dispatcher : DispatcherId}
    (hproxy : w.proxies[p]? = some proxy) (hdispatch : proxy.dispatch = .subclass dispatcher)
    (hnamed : m.kind ≠ .regular → identity m.key) :
    AgreeAt (World.Inside host identity slot) (subclassRoute host below dispatcher p m arguments)
      (subclassRoute host below' dispatcher p m arguments) w := by
  refine .get_bind ?_
  obtain ⟨c, source, hparts⟩ := (hw.visited.orderly.fits p proxy hproxy).parts? hproxy
  simp only [hparts]
  refine (callbackOf_agreeAt h hw hparts hdispatch hnamed).bind fun chosen v _ hv => ?_
  rcases chosen with e | callback
  · exact .pure _ hv
  · exact callbackRoute_agree callback p proxy c source m arguments v hv

theorem subclassRoute_heeds (h : Accord host identity guards slot below below')
    (hw : w.Inside host identity slot) {proxy : Proxy} {dispatcher : DispatcherId} {r : Route κ}
    (hproxy : w.proxies[p]? = some proxy) (hdispatch : proxy.dispatch = .subclass dispatcher)
    (hnamed : m.kind ≠ .regular → identity m.key)
    (hrun : (subclassRoute host below dispatcher p m arguments).run w = some (r, v)) :
    r.Heeds (v.exposes p) := by
  obtain ⟨c, source, hparts⟩ := (hw.visited.orderly.fits p proxy hproxy).parts? hproxy
  rw [subclassRoute, get_bind_run] at hrun
  simp only [hparts] at hrun
  obtain ⟨chosen, x, hchosen, hrun⟩ := run_bind_eq_some.mp hrun
  rcases chosen with e | callback
  · cases hrun
    trivial
  · obtain ⟨c', hlater, hknown⟩ := callbackOf_chosen h hw hparts hdispatch hnamed hchosen
    have hflags : c.flags.exposeProxy = x.exposes p := by rw [hknown.exposes, hlater.flags]
    rcases callbackRoute_eq_some hrun with ⟨_, rfl, _⟩ | ⟨rfl, rfl, rfl⟩ |
      ⟨chain, rfl, rfl, rfl⟩ | ⟨rfl, rfl, rfl⟩ | ⟨rfl, rfl, rfl⟩
    · trivial
    · exact hflags
    · exact hflags
    · exact hflags
    · obtain ⟨_, _, _, hhidden, _⟩ := hknown.backed
      exact hknown.exposes.trans hhidden

theorem route_agree (h : Accord host identity guards slot below below') (p : ProxyId)
    (hnamed : m.kind ≠ .regular → identity m.key) (arguments : List Value) :
    Agree (World.Inside host identity slot) (route host below p m arguments)
      (route host below' p m arguments) := by
  intro w hw
  refine .get_bind ?_
  split
  · exact .pure _ hw
  · rename_i proxy hproxy
    refine (AgreeAt.modify (hw.record _)).bind fun _ v hv hinside => ?_
    cases hv
    split
    · exact contractRoute_agree _ p m arguments _ hinside
    · rename_i dispatcher hdispatch
      exact subclassRoute_agreeAt h hinside hproxy hdispatch hnamed

theorem route_heeds (h : Accord host identity guards slot below below')
    (hw : w.Inside host identity slot) (hnamed : m.kind ≠ .regular → identity m.key)
    {r : Route κ} (hrun : (route host below p m arguments).run w = some (r, v)) :
    r.Heeds (v.exposes p) := by
  rw [route, get_bind_run] at hrun
  rcases hproxy : w.proxies[p]? with _ | proxy
  · simp only [hproxy] at hrun
    cases hrun
    trivial
  · simp only [hproxy] at hrun
    obtain ⟨_, u, htrace, hrun⟩ := run_bind_eq_some.mp hrun
    cases htrace
    rcases hdispatch : proxy.dispatch with d | dispatcher
    · rw [hdispatch] at hrun
      exact contractRoute_heeds hrun
    · rw [hdispatch] at hrun
      exact subclassRoute_heeds h (hw.record _) hproxy hdispatch hnamed hrun

/-- A call does the same where it goes if the requests made there are answered alike with the proxy
exposed, if it is to be. -/
theorem follow_agreeAt {exposed : Bool} {r : Route κ} (hheeds : r.Heeds exposed)
    (hopens : Opens exposed p slot within) (h : Accord host identity guards within below below')
    (hw : w.Inside host identity slot) (m : MethodSignature) (arguments : List Value) :
    AgreeAt (World.Inside host identity slot) (follow host below p m arguments r)
      (follow host below' p m arguments r) w := by
  cases r with
  | answered result => exact .pure _ hw
  | unbuilt e => exact .pure _ hw
  | advised proxy c source fixed =>
      obtain rfl : c.flags.exposeProxy = exposed := hheeds
      exact invokeAdvised_agreeAt hopens h hw source m arguments fixed
  | direct proxy c source =>
      obtain rfl := hopens.hidden hheeds
      exact dispatchTarget_agree h p proxy c.source m arguments w hw

end Routing

end Run

end Weaving
