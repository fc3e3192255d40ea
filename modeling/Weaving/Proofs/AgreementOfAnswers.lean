import Weaving.Proofs.AgreementOnRoutes

/-
The answer to every proper request is the same under two ways of answering the requests that are made
on the way.  A proxy that is made gets a dispatcher of its own, one that nobody has routed by yet.  By
induction on the depth, user code that makes proper requests only leads from visited worlds to visited
ones.
-/
namespace Weaving

variable {κ σ ν α : Type} {host : Host κ σ ν} {identity : MethodKey → Prop} {guards : Prop}
  {slot within : Option Value → Prop} {below below' : Handler κ σ ν}

/-- A request that neither calls a proxy nor exposes an object. -/
def Request.IsPlain : Request κ σ ν → Prop
  | .invoke _ _ _ => False
  | .routeBySubclass _ _ _ _ => False
  | .routeByContracts _ _ _ _ => False
  | .expose _ => False
  | _ => True

namespace Run

section Proxies

variable {w v : World κ σ ν}

theorem freeze_agree (id : ConfigurationId) :
    Agree (World.Inside host identity slot) (freeze id : Run κ σ ν Unit) (freeze id) := by
  intro w hw
  refine .get_bind ?_
  split
  · exact .pure _ hw
  · rename_i c hc
    split
    · exact .pure _ hw
    · rename_i hmutable
      have hfrozen : c.freeze = { c with frozen := true, cache := .empty } := by
        simp [Configuration.freeze, hmutable]
      refine AgreeAt.bind (.modify ?_) fun _ v _ hv => Agree.log _ v hv
      refine hw.step (.configured hc .froze) (.configured hc fun key chain h => ?_)
      rw [hfrozen] at h
      cases h

theorem addDispatcher_agree {d : SubclassDispatcher κ} (fresh : d.callbacks = []) :
    Agree (World.Inside host identity slot) (addDispatcher d : Run κ σ ν DispatcherId)
      (addDispatcher d) :=
  fun _ hw => .exchange (hw.turn (.madeDispatcher fresh))

theorem newDispatcher_agree (h : Accord host identity guards slot below below')
    (id : ConfigurationId) (type : TypeInfo) :
    Agree (World.Inside host identity slot) (newDispatcher host below id type)
      (newDispatcher host below' id type) := by
  refine .get_bind fun w => ?_
  split
  · exact (addDispatcher_agree rfl).bind fun _ => .pure _
  · split
    · apply (precompute_agree h id).bind
      intro found
      rcases found with e | chains
      · exact .pure _
      · exact (Agree.log _).bind fun _ => (addDispatcher_agree rfl).bind fun _ => .pure _
    · exact (addDispatcher_agree rfl).bind fun _ => .pure _

/-- Nobody routes by a dispatcher that was just added. -/
theorem addDispatcher_unused (hw : w.Visited host identity) {d : SubclassDispatcher κ}
    (fresh : d.callbacks = []) :
    ({ w with dispatchers := w.dispatchers.push d } : World κ σ ν).Unused w.dispatchers.size := by
  refine ⟨fun found hfound => ?_, fun p proxy hproxy hdispatch => ?_⟩
  · cases Array.getElem?_push_size.symm.trans hfound
    exact fresh
  · obtain ⟨c, source, hparts⟩ := (hw.orderly.fits p proxy hproxy).parts? hproxy
    obtain ⟨found, hfound, _⟩ := hw.orderly.madeFor hparts hdispatch
    exact absurd hfound (by simp)

theorem newDispatcher_unused (h : Accord host identity guards slot below below')
    (hw : w.Inside host identity slot) {id : ConfigurationId} {type : TypeInfo}
    {dispatcher : DispatcherId}
    (hrun : (newDispatcher host below id type).run w = some (.ok dispatcher, v)) :
    v.Unused dispatcher := by
  rw [newDispatcher, get_bind_run] at hrun
  rcases hc : w.configurations[id]? with _ | c
  · simp only [hc] at hrun
    cases hrun
    exact addDispatcher_unused hw.visited rfl
  · simp only [hc] at hrun
    split at hrun
    · obtain ⟨found, u, hfound, hrun⟩ := run_bind_eq_some.mp hrun
      have hu := (precompute_agree h id w hw).ends hfound
      rcases found with e | chains
      · cases hrun
      · obtain ⟨_, u', hlog, hrun⟩ := run_bind_eq_some.mp hrun
        cases hlog
        cases hrun
        exact addDispatcher_unused (hu.record _).visited rfl
    · cases hrun
      exact addDispatcher_unused hw.visited rfl

theorem preFilter_agree (f : ProxyFactory κ) (type : Option TypeInfo) :
    Agree (World.Inside host identity slot)
      (preFilter f type : Run κ σ ν (Flags × List (Advisor κ))) (preFilter f type) := by
  simp only [preFilter]
  split
  · split
    · exact (Agree.asking _).bind fun _ => (Agree.log _).bind fun _ => .pure _
    · exact (Agree.log _).bind fun _ => .pure _
  · exact .pure _

theorem chainFactoryOf_agree (f : ProxyFactory κ) :
    Agree (World.Inside host identity slot) (chainFactoryOf f : Run κ σ ν (ChainFactory κ))
      (chainFactoryOf f) := by
  unfold chainFactoryOf
  split
  · exact .pure _
  · exact .pure _
  · exact (Agree.logAll _).bind fun _ => .pure _

theorem chooseDispatch_agree (h : Accord host identity guards slot below below')
    (id : ConfigurationId) (c : Configuration κ) (type : Option TypeInfo) :
    Agree (World.Inside host identity slot) (chooseDispatch host below id c type)
      (chooseDispatch host below' id c type) := by
  simp only [chooseDispatch]
  split
  · split
    · exact .pure _
    · apply (newDispatcher_agree h id _).bind
      intro made
      rcases made with e | dispatcher
      · exact .pure _
      · exact .pure _
  · exact .pure _

theorem chooseDispatch_unused (h : Accord host identity guards slot below below')
    (hw : w.Inside host identity slot) {id : ConfigurationId} {c : Configuration κ}
    {type : Option TypeInfo} {dispatch : Dispatch} {types : List TypeInfo}
    (hrun : (chooseDispatch host below id c type).run w = some (.ok (dispatch, types), v))
    (dispatcher : DispatcherId) (hdispatch : dispatch = .subclass dispatcher) :
    v.Unused dispatcher := by
  simp only [chooseDispatch] at hrun
  split at hrun
  · rcases type with _ | type
    · cases hrun
    · obtain ⟨made, u, hmade, hrun⟩ := run_bind_eq_some.mp hrun
      rcases made with e | made
      · cases hrun
      · cases hrun
        cases hdispatch
        exact newDispatcher_unused h hw hmade
  · cases hrun
    cases hdispatch

theorem configure_cache (f : ProxyFactory κ) (flags : Flags) (id : SourceId)
    (type : Option TypeInfo) (advisors : List (Advisor κ)) (chainFactory : ChainFactory κ) :
    (f.configure flags id type advisors chainFactory).cache = .empty := by
  unfold ProxyFactory.configure
  split
  · dsimp only
    split
    · rfl
    · rfl
  · rfl

theorem prepare_agreeAt (hw : w.Inside host identity slot) (f : ProxyFactory κ) {id : SourceId}
    {source : Source κ} (hsource : w.sources[id]? = some source) :
    AgreeAt (World.Inside host identity slot) (prepare f id source.type)
      (prepare f id source.type) w := by
  have hfilter : Sound host (fun _ => True) 0 _ := preFilter_sound f source.type
  have hfactory : Sound host (fun _ => True) 0 _ := chainFactoryOf_sound f
  refine (preFilter_agree f source.type w hw).bind fun filtered v₁ h₁ hinside₁ => ?_
  refine (chainFactoryOf_agree f v₁ hinside₁).bind fun chainFactory v₂ h₂ hinside₂ => ?_
  obtain ⟨change, hsource₂⟩ := ((hfilter.later h₁).trans (hfactory.later h₂)).sources id source
    hsource
  refine AgreeAt.bind (.exchange ?_) fun configuration v₃ _ hinside₃ => ?_
  · rw [← Source.type_mapPool source change]
    refine hinside₂.step (.madeConfiguration hsource₂) (fun id' c' key chain hc' hfound => ?_)
    change (v₂.configurations.push _)[id']? = some c' at hc'
    rw [Array.getElem?_push] at hc'
    split at hc'
    · cases hc'
      rw [configure_cache] at hfound
      cases hfound
    · exact ⟨c', hc', hfound⟩
  refine (Agree.logAll _ v₃ hinside₃).bind fun _ v₄ _ hinside₄ => ?_
  dsimp only
  split
  · exact (freeze_agree configuration v₄ hinside₄).bind fun _ v₅ _ hinside₅ => .pure _ hinside₅
  · exact .pure _ hinside₄

theorem place_agreeAt (h : Accord host identity guards slot below below')
    (hw : w.Inside host identity slot) {id : ConfigurationId} {c : Configuration κ}
    {source : Source κ} (hplaces : Places w id source) :
    AgreeAt (World.Inside host identity slot) (place host below id c source)
      (place host below' id c source) w := by
  obtain ⟨c₀, change, hc, hsource⟩ := hplaces
  apply (chooseDispatch_agree h id c source.type w hw).bind
  intro chosen v hv hinside
  rcases chosen with e | ⟨dispatch, types⟩
  · exact .pure _ hinside
  · have hunused := chooseDispatch_unused h hw hv
    rw [← Source.type_mapPool source change] at hv
    have hmade := hinside.turn (.madeProxy (chooseDispatch_fits h.sound hc hsource hv) hunused)
    refine (AgreeAt.exchange hmade).bind fun p v' _ hv' => ?_
    exact (Agree.log _ v' hv').bind fun _ v'' _ hv'' => .pure _ hv''

theorem makeProxyFor_agreeAt (h : Accord host identity guards slot below below')
    (hw : w.Inside host identity slot) (f : ProxyFactory κ) {id : SourceId} {source : Source κ}
    (hsource : w.sources[id]? = some source) :
    AgreeAt (World.Inside host identity slot) (makeProxyFor host below f id source)
      (makeProxyFor host below' f id source) w := by
  rw [makeProxyFor_eq, makeProxyFor_eq]
  split
  · exact .pure _ hw
  · refine (prepare_agreeAt hw f hsource).bind fun made v hv hinside => ?_
    exact place_agreeAt h hinside (prepare_places host hsource hv)

theorem makeProxyOver_agree (h : Accord host identity guards slot below below')
    (f : ProxyFactory κ) (id : SourceId) :
    Agree (World.Inside host identity slot) (makeProxyOver host below f id)
      (makeProxyOver host below' f id) := by
  intro w hw
  refine .get_bind ?_
  split
  · exact .pure _ hw
  · rename_i source hsource
    exact makeProxyFor_agreeAt h hw f hsource

theorem makeProxy_agree (h : Accord host identity guards slot below below')
    (f : ProxyFactory κ) :
    Agree (World.Inside host identity slot) (makeProxy host below f)
      (makeProxy host below' f) := by
  rcases hsource : f.source with _ | id
  · rw [makeProxy_of_none hsource, makeProxy_of_none hsource]
    refine Agree.bind ?_ (makeProxyOver_agree h f)
    exact .exchange fun _ => .madeSource
  · rw [makeProxy_of_source hsource, makeProxy_of_source hsource]
    exact makeProxyOver_agree h f id

end Proxies

section Answers

theorem changeConfiguration_agree {id : ConfigurationId}
    {change : Configuration κ → Except AopError (α × Configuration κ)}
    (hchange : ∀ c a c', change c = .ok (a, c') → c.Step host c' ∧ c'.cache = c.cache) :
    Agree (World.Inside host identity slot)
      (changeConfiguration id change : Run κ σ ν (Except AopError α))
      (changeConfiguration id change) := by
  intro w hw
  refine .get_bind ?_
  split
  · exact .pure _ hw
  · rename_i c hc
    split
    · exact .pure _ hw
    · rename_i a c' hdone
      obtain ⟨hstep, hcache⟩ := hchange c a c' hdone
      refine AgreeAt.bind (.modify ?_) fun _ v _ hv => .pure _ hv
      exact hw.step (.configured hc hstep) (.configured hc fun key chain h => hcache ▸ h)

theorem insertAdvisor_agree (id : ConfigurationId) (position : Option Nat) (a : Advisor κ) :
    Agree (World.Inside host identity slot) (insertAdvisor id position a : Run κ σ ν _)
      (insertAdvisor id position a) := by
  refine (changeConfiguration_agree fun c line c' h => ?_).bind fun done => ?_
  · rcases hinsert : c.insertAdvisor position a with e | changed
    · rw [hinsert] at h
      cases h
    · rw [hinsert] at h
      cases h
      obtain ⟨_, hinserted⟩ := Configuration.insertAdvisor_eq_ok hinsert
      exact ⟨.inserted hinsert, by rw [hinserted]; rfl⟩
  · rcases done with e | line
    · exact .pure _
    · exact (Agree.log _).bind fun _ => .pure _

theorem answerWith_agree (h : Accord host identity guards slot below below')
    {r : Request κ σ ν} (hplain : r.IsPlain) :
    Agree (World.Inside host identity slot) (answerWith host below r)
      (answerWith host below' r) := by
  cases r with
  | invoke id m arguments => exact hplain.elim
  | routeBySubclass d id m arguments => exact hplain.elim
  | routeByContracts d id m arguments => exact hplain.elim
  | expose value => exact hplain.elim
  | remember memory => exact .modify fun _ => .recalled
  | note content => exact .record _
  | publish lines => exact .logAll lines
  | newTarget type code => exact .exchange fun _ => .madeTarget
  | newSource source => exact .exchange fun _ => .madeSource
  | newCache => exact .exchange fun _ => .madeCache
  | makeProxy factory => exact makeProxy_agree h factory
  | addInterface id type =>
      refine changeConfiguration_agree fun c _ c' hchange => ?_
      rcases hadd : c.addInterface type with e | changed
      · rw [hadd] at hchange
        cases hchange
      · rw [hadd] at hchange
        cases hchange
        obtain ⟨_, hadded⟩ := Configuration.addInterface_eq_ok hadd
        exact ⟨.exposed hadd, by rw [hadded]⟩
  | insertAdvisor id position a => exact insertAdvisor_agree id position a
  | removeAdvisor id position =>
      refine changeConfiguration_agree fun c a c' hchange => ?_
      obtain ⟨_, _, hremoved⟩ := Configuration.removeAdvisor_eq_ok hchange
      exact ⟨.removed hchange, by rw [hremoved]⟩
  | freeze id => exact freeze_agree id
  | chainFor id m target => exact chainFor_agree h id m target
  | precompute id => exact precompute_agree h id
  | newDispatcher id type => exact newDispatcher_agree h id type
  | acquire id => exact acquire_agree h id
  | release id target => exact release_agree h id target
  | askMatcher matcher m target introductions => exact .asking _
  | canApply a target methods introductions => exact .asking _
  | findApplicable advisors target methods => exact .asking _
  | buildChain registry advisors preFiltered m target => exact buildFrom_agree _ _ _ _ _
  | runJoinPoint jp => exact runJoinPoint_agree h jp
  | cachedChain id m target builder =>
      intro w hw
      refine cachedOr_agreeAt hw (Agree.code h (h.proper.builder builder) w hw) ?_
      exact fun chain v _ hv => hv.step .stored
  | storeChain id m target chain => exact .modify fun _ => .stored
  | clearCache id => exact .modify fun _ => .stored
  | _ => exact .get_bind fun w => .pure _

/-- A call that is decided alike goes on alike if the requests made where it goes are answered alike
with the proxy exposed, if it is to be. -/
theorem sent_agree {p : ProxyId} {decide decide' : Run κ σ ν (Route κ)}
    (hdecide : Agree (World.Inside host identity slot) decide decide')
    (hheeds : ∀ {w r v}, w.Inside host identity slot → decide.run w = some (r, v) →
      r.Heeds (v.exposes p))
    {within : Bool → Option Value → Prop} {deeper : Bool → Handler κ σ ν}
    (hopens : ∀ exposed, Opens exposed p slot (within exposed))
    (hdeeper : ∀ exposed, Accord host identity guards (within exposed) below (deeper exposed))
    (m : MethodSignature) (arguments : List Value) :
    Agree (World.Inside host identity slot) (decide >>= follow host below p m arguments)
      (decide' >>= fun r => do follow host (deeper ((← get).exposes p)) p m arguments r) := by
  intro w hw
  refine (hdecide w hw).bind fun r v hr hv => ?_
  have hfollow := follow_agreeAt (hheeds hw hr) (hopens _) (hdeeper _) hv m arguments
  refine ⟨?_, hfollow.ends⟩
  rw [get_bind_run]
  exact hfollow.same

end Answers

section Depth

/-- Whatever proper requests are answered with, visited worlds stay visited. -/
theorem answer_accord (hhost : host.Proper identity True) (depth : Nat) :
    Accord host identity True (fun _ => True) (answer host depth) (answer host depth) := by
  refine ⟨hhost, ⟨depth, rfl⟩, ?_⟩
  induction depth with
  | zero => exact fun r _ w _ => ⟨rfl, fun h => nomatch h⟩
  | succ depth ih =>
      have hbelow : Accord host identity True (fun _ => True) (answer host depth)
          (answer host depth) := ⟨hhost, ⟨depth, rfl⟩, ih⟩
      have hopens : ∀ (p : ProxyId) (exposed : Bool),
          Opens exposed p (fun _ => True) (fun _ => True) :=
        fun _ _ => ⟨fun _ => trivial, fun _ => rfl⟩
      intro r hr
      cases r with
      | invoke p m arguments =>
          change Agree _ (invoke host (answer host depth) p m arguments) (invoke host _ p m _)
          rw [invoke_eq]
          exact (sent_agree (route_agree hbelow p hr arguments)
            (fun hw hrun => route_heeds hbelow hw hr hrun) (hopens p) (fun _ => hbelow) m
            arguments).left
      | routeByContracts d p m arguments =>
          change Agree _ (routeByContracts host (answer host depth) d p m arguments)
            (routeByContracts host _ d p m _)
          rw [routeByContracts_eq]
          exact (sent_agree (contractRoute_agree d p m arguments)
            (fun _ hrun => contractRoute_heeds hrun) (hopens p) (fun _ => hbelow) m arguments).left
      | routeBySubclass d p m arguments => exact hr.elim
      | expose value =>
          exact fun w hw => .exchange ⟨hw.visited.turn (.exposed w value), trivial⟩
      | _ => exact answerWith_agree hbelow (by trivial)

variable {depth : Nat} {program : Code κ σ ν α} {w : World κ σ ν}

/-- Proper user code leads from visited worlds to visited worlds. -/
theorem code_visited (hhost : host.Proper identity True)
    (hprogram : program.Asks (·.Proper identity True)) {a : α} {w' : World κ σ ν}
    (hw : w.Visited host identity) (h : code host depth program w = some (a, w')) :
    w'.Visited host identity :=
  (Agree.code (answer_accord hhost depth) hprogram w ⟨hw, trivial⟩).ends h |>.visited

theorem worldAfter_visited (hhost : host.Proper identity True)
    (hprogram : program.Asks (·.Proper identity True)) (hw : w.Visited host identity) :
    (worldAfter host depth program w).Visited host identity := by
  rw [worldAfter]
  rcases h : code host depth program w with _ | ⟨a, w'⟩
  · exact hw
  · exact code_visited hhost hprogram hw h

end Depth

end Run

end Weaving
