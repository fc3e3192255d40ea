import Weaving.Run.Answers
import Weaving.Proofs.SoundCalls

/-
The engine as a whole is sound.  Making proxies is, since a new proxy gets parts that belong
together, and so is the answer to every request as long as the user code that runs on the way is
answered soundly; induction on the depth closes the circle.
-/
namespace Weaving.Run

variable {κ σ ν α : Type} {host : Host κ σ ν} {below : Handler κ σ ν} {allowed : Act → Prop}
  {begun : Nat}

section Dispatchers

theorem freeze_sound (id : ConfigurationId) :
    Sound host allowed begun (freeze id : Run κ σ ν Unit) := by
  intro w _
  rw [freeze]
  refine .get_bind ?_ fun _ => rfl
  split
  · exact .pure _ _
  · rename_i c hc
    split
    · exact .pure _ _
    · apply (SoundAt.modify (.configured hc .froze) fun _ _ => rfl).bind
      intro _ v _
      exact .record fun a ha => by cases ha

/-- The chains found for several methods of a frozen configuration are all remembered. -/
theorem chainsFor_remembers (hbelow : below.Sound host) {id : ConfigurationId}
    {target : Option TypeInfo} {methods : List MethodSignature} :
    ∀ {w w' : World κ σ ν} {c : Configuration κ} {chains : List (MethodSignature × Chain κ)},
      w.configurations[id]? = some c → c.frozen = true →
      (chainsFor host below id target methods).run w = some (.ok chains, w') →
      ∃ c', w'.configurations[id]? = some c' ∧
        ∀ entry ∈ chains, c'.frozen = true ∧
          c'.cache.find? (.of entry.1 target) = some entry.2 := by
  induction methods with
  | nil =>
      intro w w' c chains hc _ h
      cases h
      exact ⟨c, hc, fun entry hentry => nomatch hentry⟩
  | cons m rest ih =>
      intro w w' c chains hc hfrozen h
      obtain ⟨found, v, hv, h⟩ := run_bind_eq_some.mp h
      cases found with
      | error e => cases h
      | ok chain =>
          obtain ⟨c₁, hc₁, hfrozen₁, hfound⟩ := chainFor_remembers hbelow hc hfrozen hv
          obtain ⟨later, v', hv', h⟩ := run_bind_eq_some.mp h
          cases later with
          | error e => cases h
          | ok later =>
              cases h
              obtain ⟨c₂, hc₂, hall⟩ := ih hc₁ hfrozen₁ hv'
              have hrest : v.Later w' :=
                Sound.later (chainsFor_sound hbelow (fun _ _ => trivial) id target rest) hv'
              obtain ⟨c₃, hc₃, hlater⟩ := hrest.configurations id c₁ hc₁
              obtain rfl : c₃ = c₂ := Option.some.inj (hc₃.symm.trans hc₂)
              refine ⟨c₃, hc₃, fun entry hentry => ?_⟩
              rcases List.mem_cons.mp hentry with rfl | hentry
              · exact ⟨hlater.frozen hfrozen₁, hlater.cache hfrozen₁ _ _ hfound⟩
              · exact hall entry hentry

/-- What is put into a list of entries one by one comes from there or was in it before. -/
theorem get?_foldl_put (chains : List (MethodSignature × Chain κ)) {key : MethodKey}
    {chain : Chain κ} : ∀ known : List (MethodKey × Chain κ),
      Assoc.get? key
        (chains.foldl (fun known entry => Assoc.put entry.1.key entry.2 known) known) = some chain →
      Assoc.get? key known = some chain ∨ ∃ m, m.key = key ∧ (m, chain) ∈ chains := by
  induction chains with
  | nil => exact fun known h => .inl h
  | cons entry rest ih =>
      intro known h
      rcases ih _ h with hknown | ⟨m, hm, hmem⟩
      · by_cases hkey : key = entry.1.key
        · subst hkey
          rw [Assoc.get?_put_self] at hknown
          cases hknown
          exact .inr ⟨entry.1, rfl, List.mem_cons_self⟩
        · rw [Assoc.get?_put_of_ne _ _ hkey] at hknown
          exact .inl hknown
      · exact .inr ⟨m, hm, List.mem_cons_of_mem entry hmem⟩

theorem get?_chainsByKey {chains : List (MethodSignature × Chain κ)} {key : MethodKey}
    {chain : Chain κ} (h : Assoc.get? key (chainsByKey chains) = some chain) :
    ∃ m, m.key = key ∧ (m, chain) ∈ chains := by
  rcases get?_foldl_put chains [] h with hnone | hsome
  · cases hnone
  · exact hsome

theorem addDispatcher_sound {d : SubclassDispatcher κ} (hfresh : d.callbacks = []) :
    Sound host allowed begun (addDispatcher d : Run κ σ ν DispatcherId) :=
  .exchange (fun _ => .madeDispatcher hfresh) (fun _ _ => rfl) fun _ _ => rfl

theorem newDispatcher_sound (hbelow : below.Sound host)
    (hnew : ∀ a : Act, begun ≤ a.call → allowed a) (id : ConfigurationId) (type : TypeInfo) :
    Sound host allowed begun (newDispatcher host below id type) := by
  rw [newDispatcher]
  refine .get_bind (fun w => ?_) fun _ _ => rfl
  split
  · exact (addDispatcher_sound rfl).bind fun _ => .pure _
  · split
    · apply (precompute_sound hbelow hnew id).bind
      intro found
      cases found with
      | error e => exact .pure _
      | ok chains =>
          exact (Sound.log _).bind fun _ => (addDispatcher_sound rfl).bind fun _ => .pure _
    · exact (addDispatcher_sound rfl).bind fun _ => .pure _

/-- A new dispatcher knows no chains but those that its configuration remembers. -/
theorem newDispatcher_fits (hbelow : below.Sound host) {id : ConfigurationId} {type : TypeInfo}
    {w w' : World κ σ ν} {c : Configuration κ} {source : Source κ} {dispatcher : DispatcherId}
    (hc : w.configurations[id]? = some c) (hsource : w.sources[c.source]? = some source)
    (htype : source.type = some type)
    (h : (newDispatcher host below id type).run w = some (.ok dispatcher, w')) :
    ∃ d c', w'.dispatchers[dispatcher]? = some d ∧ w'.configurations[id]? = some c' ∧
      d.targetType = type ∧
      ∀ key chain, Assoc.get? key d.fixedChains = some chain → c'.Remembers type key chain := by
  rw [newDispatcher, get_bind_run] at h
  simp only [hc] at h
  split at h
  · rename_i hsettled
    have hfrozen : c.frozen = true := (Bool.and_eq_true _ _ ▸ hsettled).1
    obtain ⟨found, v, hv, h⟩ := run_bind_eq_some.mp h
    rw [precompute, get_bind_run] at hv
    simp only [hc, hfrozen, hsource, htype, if_true, Option.bind_some] at hv
    cases found with
    | error e => cases h
    | ok chains =>
        obtain ⟨c', hc', hall⟩ := chainsFor_remembers hbelow hc hfrozen hv
        cases h
        refine ⟨⟨type, chainsByKey chains, []⟩, c', by simp, hc', rfl, ?_⟩
        intro key chain hchain
        obtain ⟨m, rfl, hmem⟩ := get?_chainsByKey hchain
        exact hall (m, chain) hmem
  · cases h
    refine ⟨⟨type, [], []⟩, c, by simp, hc, rfl, ?_⟩
    intro key chain hchain
    cases hchain

end Dispatchers

section Proxies

theorem preFilter_sound (f : ProxyFactory κ) (type : Option TypeInfo) :
    Sound host allowed begun (preFilter f type : Run κ σ ν (Flags × List (Advisor κ))) := by
  simp only [preFilter]
  split
  · split
    · exact (Sound.asking _).bind fun _ => (Sound.log _).bind fun _ => .pure _
    · exact (Sound.log _).bind fun _ => .pure _
  · exact .pure _

theorem chainFactoryOf_sound (f : ProxyFactory κ) :
    Sound host allowed begun (chainFactoryOf f : Run κ σ ν (ChainFactory κ)) := by
  rw [chainFactoryOf]
  split
  · exact .pure _
  · exact .pure _
  · exact (Sound.logAll _).bind fun _ => .pure _

theorem chooseDispatch_sound (hbelow : below.Sound host)
    (hnew : ∀ a : Act, begun ≤ a.call → allowed a) (id : ConfigurationId) (c : Configuration κ)
    (type : Option TypeInfo) : Sound host allowed begun (chooseDispatch host below id c type) := by
  simp only [chooseDispatch]
  split
  · split
    · exact .pure _
    · apply (newDispatcher_sound hbelow hnew id _).bind
      intro made
      cases made with
      | error e => exact .pure _
      | ok dispatcher => exact .pure _
  · exact .pure _

/-- The routing chosen for a proxy fits its configuration and its source. -/
theorem chooseDispatch_fits (hbelow : below.Sound host) {id : ConfigurationId}
    {c c₀ : Configuration κ} {source : Source κ} {w w' : World κ σ ν} {dispatch : Dispatch}
    {types : List TypeInfo} (hc : w.configurations[id]? = some c₀)
    (hsource : w.sources[c₀.source]? = some source)
    (h : (chooseDispatch host below id c source.type).run w = some (.ok (dispatch, types), w')) :
    w'.Fits ⟨id, dispatch, types⟩ := by
  have hchosen : w.Later w' :=
    Sound.later (chooseDispatch_sound hbelow (fun _ _ => trivial) id c source.type) h
  obtain ⟨c', hc', hlater⟩ := hchosen.configurations id c₀ hc
  obtain ⟨change, hsource'⟩ := hchosen.sources c₀.source source hsource
  rw [← hlater.source] at hsource'
  refine ⟨c', source.mapPool change, hc', hsource', ?_⟩
  simp only [chooseDispatch] at h
  split at h
  · cases htype : source.type with
    | none =>
        rw [htype] at h
        cases h
    | some type =>
        rw [htype] at h
        obtain ⟨made, v, hv, h⟩ := run_bind_eq_some.mp h
        cases made with
        | error e => cases h
        | ok dispatcher =>
            obtain ⟨d, c₁, hd, hc₁, rfl, hfixed⟩ := newDispatcher_fits hbelow hc hsource htype hv
            cases h
            obtain rfl : c₁ = c' := Option.some.inj (hc₁.symm.trans hc')
            refine ⟨d, hd, ⟨?_, hfixed⟩, List.mem_cons_self⟩
            rw [Source.type_mapPool]
            exact htype
  · cases h
    rfl

/-- A configuration is there with its source, whatever became of the source's pool. -/
def Places (w : World κ σ ν) (id : ConfigurationId) (source : Source κ) : Prop :=
  ∃ c change, w.configurations[id]? = some c ∧ w.sources[c.source]? = some (source.mapPool change)

theorem Places.later {w w' : World κ σ ν} {id : ConfigurationId} {source : Source κ}
    (h : Places w id source) (hlater : w.Later w') : Places w' id source := by
  obtain ⟨c, change, hc, hsource⟩ := h
  obtain ⟨c', hc', hsame⟩ := hlater.configurations id c hc
  obtain ⟨further, hsource'⟩ := hlater.sources c.source _ hsource
  refine ⟨c', further ∘ change, hc', ?_⟩
  rw [hsame.source, ← Source.mapPool_mapPool]
  exact hsource'

theorem addProxy_soundAt {proxy : Proxy} {w : World κ σ ν} (hfits : w.Fits proxy) :
    SoundAt host allowed (addProxy proxy) w :=
  .exchange (.madeProxy hfits) (fun _ _ => rfl) fun _ => rfl

theorem configure_source (f : ProxyFactory κ) (flags : Flags) (id : SourceId)
    (type : Option TypeInfo) (advisors : List (Advisor κ)) (chainFactory : ChainFactory κ) :
    (f.configure flags id type advisors chainFactory).source = id := by
  unfold ProxyFactory.configure
  split
  · dsimp only
    split
    · rfl
    · rfl
  · rfl

/-- Puts together the configuration of a factory's proxy, and freezes it if the flags say so. -/
def prepare (f : ProxyFactory κ) (id : SourceId) (type : Option TypeInfo) :
    Run κ σ ν (ConfigurationId × Configuration κ) := do
  let (flags, advisors) ← preFilter f type
  let chainFactory ← chainFactoryOf f
  let c := f.configure flags id type advisors chainFactory
  let configuration ← newConfiguration c
  logAll (ProxyFactory.advisorLines advisors)
  if flags.frozen then freeze configuration
  return (configuration, c)

/-- Makes a proxy whose configuration is there. -/
def place (host : Host κ σ ν) (below : Handler κ σ ν) (id : ConfigurationId) (c : Configuration κ)
    (source : Source κ) : Run κ σ ν (Except AopError ProxyId) := do
  match ← chooseDispatch host below id c source.type with
  | .error e => return .error e
  | .ok (dispatch, proxiedTypes) =>
    let p ← addProxy ⟨id, dispatch, proxiedTypes⟩
    log (creationLine ⟨id, dispatch, proxiedTypes⟩ source.name c.advisors.length)
    return .ok p

/-- Makes a proxy over a source. -/
def makeProxyOver (host : Host κ σ ν) (below : Handler κ σ ν) (f : ProxyFactory κ) (id : SourceId) :
    Run κ σ ν (Except AopError ProxyId) := do
  match (← get).sources[id]? with
  | none => return .error (.configuration "No advisors and no target source specified")
  | some source => makeProxyFor host below f id source

theorem makeProxy_of_source {f : ProxyFactory κ} {id : SourceId} (h : f.source = some id) :
    makeProxy host below f = makeProxyOver host below f id := by
  rw [makeProxy, h]
  rfl

theorem makeProxy_of_none {f : ProxyFactory κ} (h : f.source = none) :
    makeProxy host below f = newSource (.empty none) >>= makeProxyOver host below f := by
  rw [makeProxy, h]
  rfl

theorem makeProxyFor_eq (f : ProxyFactory κ) (id : SourceId) (source : Source κ) :
    makeProxyFor host below f id source =
      if f.advisors.isEmpty && source.isEmpty then
        return .error (.configuration "No advisors and no target source specified")
      else prepare f id source.type >>= fun made => place host below made.1 made.2 source := by
  unfold makeProxyFor prepare place
  split
  · rfl
  · simp only [bind_assoc]
    congr
    funext filtered
    congr
    funext chainFactory
    congr
    funext configuration
    congr
    funext _
    split
    · rw [bind_assoc]
      rfl
    · rfl

theorem prepare_soundAt (f : ProxyFactory κ) {id : SourceId} {source : Source κ}
    {w : World κ σ ν} (hsource : w.sources[id]? = some source) :
    SoundAt host allowed (prepare f id source.type) w := by
  have hfilter : SoundAt host allowed _ w := preFilter_sound f source.type w (Nat.le_refl _)
  apply hfilter.bind
  intro filtered v₁ h₁
  have hfactory : SoundAt host allowed _ v₁ := chainFactoryOf_sound f v₁ (Nat.le_refl _)
  apply hfactory.bind
  intro chainFactory v₂ h₂
  have hlater := (hfilter.leads h₁).later.trans (hfactory.leads h₂).later
  obtain ⟨change, hsource₂⟩ := hlater.sources id source hsource
  have hmake : SoundAt host allowed
      (newConfiguration (f.configure filtered.1 id source.type filtered.2 chainFactory)) v₂ := by
    rw [← Source.type_mapPool source change]
    exact .exchange (.madeConfiguration hsource₂) (fun _ _ => rfl) fun _ => rfl
  apply hmake.bind
  intro configuration v₃ _
  apply (Sound.logAll _ v₃ (Nat.le_refl _)).bind
  intro _ v₄ _
  dsimp only
  split
  · exact (freeze_sound configuration v₄ (Nat.le_refl _)).bind fun _ _ _ => .pure _ _
  · exact .pure _ _

/-- A configuration that was put together is there with its source. -/
theorem prepare_places (host : Host κ σ ν) {f : ProxyFactory κ} {id : SourceId}
    {source : Source κ} {w v : World κ σ ν} {made : ConfigurationId × Configuration κ}
    (hsource : w.sources[id]? = some source)
    (h : (prepare f id source.type).run w = some (made, v)) : Places v made.1 source := by
  have hfilter : Sound host (fun _ => True) 0 _ := preFilter_sound f source.type
  have hfactory : Sound host (fun _ => True) 0 _ := chainFactoryOf_sound f
  obtain ⟨filtered, v₁, h₁, h⟩ := run_bind_eq_some.mp h
  obtain ⟨chainFactory, v₂, h₂, h⟩ := run_bind_eq_some.mp h
  obtain ⟨configuration, v₃, h₃, h⟩ := run_bind_eq_some.mp h
  obtain ⟨_, v₄, h₄, h⟩ := run_bind_eq_some.mp h
  have hplaces₃ : Places v₃ configuration source := by
    obtain ⟨change, hsource₂⟩ := ((hfilter.later h₁).trans (hfactory.later h₂)).sources id source
      hsource
    cases h₃
    refine ⟨_, change, Array.getElem?_push_size, ?_⟩
    rw [configure_source]
    exact hsource₂
  have hlines : Sound host (fun _ => True) 0 _ := Sound.logAll (ProxyFactory.advisorLines filtered.2)
  have hplaces₄ := hplaces₃.later (hlines.later h₄)
  dsimp only at h
  split at h
  · have hfreeze : Sound host (fun _ => True) 0 _ := freeze_sound configuration
    obtain ⟨_, v₅, h₅, h⟩ := run_bind_eq_some.mp h
    cases h
    exact hplaces₄.later (hfreeze.later h₅)
  · cases h
    exact hplaces₄

theorem place_soundAt (hbelow : below.Sound host)
    (hnew : ∀ a : Act, begun ≤ a.call → allowed a) {id : ConfigurationId} {c : Configuration κ}
    {source : Source κ} {w : World κ σ ν} (hw : begun ≤ w.calls) (h : Places w id source) :
    SoundAt host allowed (place host below id c source) w := by
  obtain ⟨c₀, change, hc, hsource⟩ := h
  apply (chooseDispatch_sound hbelow hnew id c source.type w hw).bind
  intro chosen v hv
  cases chosen with
  | error e => exact .pure _ _
  | ok chosen =>
      rw [← Source.type_mapPool source change] at hv
      have hfits := chooseDispatch_fits hbelow hc hsource hv
      apply (addProxy_soundAt hfits).bind
      intro p v' _
      exact (SoundAt.record fun a ha => by cases ha).bind fun _ _ _ => .pure _ _

theorem makeProxyFor_soundAt (hbelow : below.Sound host)
    (hnew : ∀ a : Act, begun ≤ a.call → allowed a) (f : ProxyFactory κ) {id : SourceId}
    {source : Source κ} {w : World κ σ ν} (hw : begun ≤ w.calls)
    (hsource : w.sources[id]? = some source) :
    SoundAt host allowed (makeProxyFor host below f id source) w := by
  rw [makeProxyFor_eq]
  split
  · exact .pure _ _
  · have hprepare : SoundAt host allowed _ w := prepare_soundAt f hsource
    apply hprepare.bind
    intro made v hv
    have hlater := (hprepare.leads hv).later
    exact place_soundAt hbelow hnew (Nat.le_trans hw hlater.calls) (prepare_places host hsource hv)

theorem makeProxyOver_sound (hbelow : below.Sound host)
    (hnew : ∀ a : Act, begun ≤ a.call → allowed a) (f : ProxyFactory κ) (id : SourceId) :
    Sound host allowed begun (makeProxyOver host below f id) := by
  intro w hw
  refine .get_bind ?_ fun _ => rfl
  split
  · exact .pure _ _
  · rename_i source hsource
    exact makeProxyFor_soundAt hbelow hnew f hw hsource

theorem makeProxy_sound (hbelow : below.Sound host)
    (hnew : ∀ a : Act, begun ≤ a.call → allowed a) (f : ProxyFactory κ) :
    Sound host allowed begun (makeProxy host below f) := by
  rcases hsource : f.source with _ | id
  · rw [makeProxy_of_none hsource]
    refine Sound.bind ?_ (makeProxyOver_sound hbelow hnew f)
    exact .exchange (fun _ => .madeSource) (fun _ _ => rfl) fun _ _ => rfl
  · rw [makeProxy_of_source hsource]
    exact makeProxyOver_sound hbelow hnew f id

end Proxies

section Answers

theorem changeConfiguration_sound {id : ConfigurationId}
    {change : Configuration κ → Except AopError (α × Configuration κ)}
    (hchange : ∀ c a c', change c = .ok (a, c') → c.Step host c') :
    Sound host allowed begun (changeConfiguration id change : Run κ σ ν (Except AopError α)) := by
  intro w _
  rw [changeConfiguration]
  refine .get_bind ?_ fun _ => rfl
  split
  · exact .pure _ _
  · rename_i c hc
    split
    · exact .pure _ _
    · rename_i a c' hdone
      refine (SoundAt.modify ?_ fun _ _ => rfl).bind fun _ _ _ => .pure _ _
      exact .configured hc (hchange c a c' hdone)

theorem insertAdvisor_sound (id : ConfigurationId) (position : Option Nat) (a : Advisor κ) :
    Sound host allowed begun (insertAdvisor id position a : Run κ σ ν _) := by
  rw [insertAdvisor]
  refine (changeConfiguration_sound fun c line c' h => ?_).bind fun done => ?_
  · cases hinsert : c.insertAdvisor position a with
    | error e =>
        rw [hinsert] at h
        cases h
    | ok changed =>
        rw [hinsert] at h
        cases h
        exact .inserted hinsert
  · cases done with
    | error e => exact .pure _
    | ok line => exact (Sound.log _).bind fun _ => .pure _

theorem answerWith_sound (hbelow : below.Sound host)
    (hnew : ∀ a : Act, begun ≤ a.call → allowed a) (r : Request κ σ ν) :
    Sound host allowed begun (answerWith host below r) := by
  cases r with
  | remember memory => exact .modify (fun _ => .recalled) fun _ _ => rfl
  | note content => exact .record fun _ h => nomatch h
  | publish lines => exact .logAll lines
  | newTarget type code => exact .exchange (fun _ => .madeTarget) (fun _ _ => rfl) fun _ _ => rfl
  | newSource source => exact .exchange (fun _ => .madeSource) (fun _ _ => rfl) fun _ _ => rfl
  | newCache => exact .exchange (fun _ => .madeCache) (fun _ _ => rfl) fun _ _ => rfl
  | makeProxy factory => exact makeProxy_sound hbelow hnew factory
  | invoke id m arguments => exact invoke_sound hbelow hnew id m arguments
  | addInterface id type =>
      refine changeConfiguration_sound fun c _ c' h => ?_
      cases hadd : c.addInterface type with
      | error e =>
          rw [hadd] at h
          cases h
      | ok changed =>
          rw [hadd] at h
          cases h
          exact .exposed hadd
  | insertAdvisor id position a => exact insertAdvisor_sound id position a
  | removeAdvisor id position => exact changeConfiguration_sound fun c a c' h => .removed h
  | freeze id => exact freeze_sound id
  | chainFor id m target => exact chainFor_sound hbelow hnew id m target
  | precompute id => exact precompute_sound hbelow hnew id
  | newDispatcher id type => exact newDispatcher_sound hbelow hnew id type
  | routeBySubclass d id m arguments => exact routeBySubclass_sound hbelow hnew d id m arguments
  | routeByContracts d id m arguments => exact routeByContracts_sound hbelow hnew d id m arguments
  | expose value => exact expose_sound value
  | acquire id => exact acquire_sound hbelow hnew id
  | release id target => exact release_sound hbelow hnew id target
  | askMatcher matcher m target introductions => exact .asking _
  | canApply a target methods introductions => exact .asking _
  | findApplicable advisors target methods => exact .asking _
  | buildChain registry advisors preFiltered m target => exact buildFrom_sound _ _ _ _ _
  | runJoinPoint jp => exact runJoinPoint_sound hbelow hnew jp
  | cachedChain id m target builder =>
      intro w hw
      refine cachedOr_soundAt (Sound.code hbelow hnew _ w hw) fun chain v hv => ?_
      exact .modify .stored fun _ _ => rfl
  | storeChain id m target chain => exact .modify (fun _ => .stored) fun _ _ => rfl
  | clearCache id => exact .modify (fun _ => .stored) fun _ _ => rfl
  | _ => exact .get_bind (fun w => .pure _) fun _ _ => rfl

/-- The engine is sound to every depth. -/
theorem answer_sound (host : Host κ σ ν) (depth : Nat) : (answer host depth).Sound host := by
  induction depth with
  | zero =>
      intro r begun w _
      exact ⟨(fun h => nomatch h), fun _ => Option.Rel.none⟩
  | succ depth ih => exact fun r begun => answerWith_sound ih (fun _ h => h) r

end Answers

end Weaving.Run
