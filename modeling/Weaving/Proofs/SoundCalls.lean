import Weaving.Run.Calls
import Weaving.Proofs.SoundJoinPoints

/-
Calls on proxies are sound as long as the user code that runs on the way is: the full course of a
call, the choice of a callback, and both ways of routing.
-/
namespace Weaving.Run

variable {κ σ ν α : Type} {host : Host κ σ ν} {below : Handler κ σ ν} {allowed : Act → Prop}
  {begun : Nat}

/-- The number of a call that begins is a new one, so all of its acts are allowed. -/
theorem permits_of_new (hnew : ∀ a : Act, begun ≤ a.call → allowed a) {call : Nat}
    (hcall : begun ≤ call) : Permits allowed call 0 where
  later a ha := hnew a (Nat.le_trans hcall (Nat.le_of_succ_le ha))
  entered _ _ _ := hnew _ hcall
  reached _ _ _ := hnew _ hcall
  returned _ _ _ _ := hnew _ hcall

theorem runJoinPoint_sound (hbelow : below.Sound host)
    (hnew : ∀ a : Act, begun ≤ a.call → allowed a) (jp : JoinPoint κ) :
    Sound host allowed begun (runJoinPoint host below jp) :=
  .beginCall_bind fun call hcall =>
    (AtCall.invoke_sound hbelow (permits_of_new hnew hcall) { jp with call := call } rfl).1

theorem expose_sound (value : Option Value) :
    Sound host allowed begun (expose value : Run κ σ ν (Option Value)) :=
  .exchange (fun _ => .exposed) (fun _ _ => rfl) fun _ _ => rfl

theorem whileExposed_sound {body : Run κ σ ν α} (hbody : Sound host allowed begun body)
    (exposed : Bool) (p : ProxyId) : Sound host allowed begun (whileExposed exposed p body) := by
  rw [whileExposed]
  split
  · refine (expose_sound _).bind fun previous => hbody.bind fun result => ?_
    exact (expose_sound _).bind fun _ => .pure _
  · exact hbody

section OneCall

variable {call : Nat}

theorem finishCall_sound (p : ProxyId) (proxy : Proxy) (m : MethodSignature)
    (target : Option TargetId) (result : Result) :
    Sound host allowed begun (finishCall p proxy m target result : Run κ σ ν Result) := by
  cases result with
  | error e => exact .pure _
  | ok value =>
      cases value with
      | some value =>
          unfold finishCall processReturn
          dsimp only
          split
          · exact (Sound.trace _).bind fun _ => .pure _
          · exact .pure _
      | none =>
          unfold finishCall processReturn
          dsimp only
          split
          · exact .pure _
          · exact .pure _

theorem reachDirectly_sound (hbelow : below.Sound host) (hpermits : Permits allowed call 0)
    (target : TargetId) (m : MethodSignature) (arguments : List Value) :
    Sound host allowed (call + 1) (reachDirectly host below call target m arguments) := by
  rw [reachDirectly]
  apply (Sound.record_act (hpermits.reached _ _ _) (Nat.lt_succ_self call)).bind
  intro _
  exact (callTarget_sound hbelow hpermits.later target m arguments).bind fun _ => .pure _

theorem runChain_sound (hbelow : below.Sound host) (hpermits : Permits allowed call 0)
    (p : ProxyId) (m : MethodSignature) (arguments : List Value) (target : Option TargetId)
    (targetType : Option TypeInfo) (chain : Chain κ) :
    Sound host allowed (call + 1)
      (runChain host below call p m arguments target targetType chain) := by
  simp only [runChain]
  split
  · apply (Sound.trace _).bind
    intro _
    cases target with
    | some target => exact reachDirectly_sound hbelow hpermits target m arguments
    | none => exact .pure _
  · exact (AtCall.invoke_sound hbelow hpermits _ rfl).1.bind fun _ => .pure _

theorem acquireFor_sound (hbelow : below.Sound host)
    (hlater : ∀ a : Act, call + 1 ≤ a.call → allowed a)
    (hacquired : ∀ id target, allowed (.acquired call id target))
    (hrefused : ∀ id, allowed (.refused call id)) (id : SourceId) :
    Sound host allowed (call + 1) (acquireFor host below call id) := by
  rw [acquireFor]
  apply (acquire_sound hbelow hlater id).bind
  intro found
  cases found with
  | ok target =>
      exact (Sound.record_act (hacquired id target) (Nat.lt_succ_self call)).bind fun _ => .pure _
  | error e =>
      exact (Sound.record_act (hrefused id) (Nat.lt_succ_self call)).bind fun _ => .pure _

/-- There is nothing to give back without a target, or to a static source. -/
theorem releaseFor_kept {call : Nat} {id : SourceId} {source : Source κ}
    {target : Option TargetId} {m : MethodSignature} {outcome : Result}
    (h : target = none ∨ source.isStatic = true) :
    releaseFor host below call id source target m outcome = pure outcome := by
  cases target with
  | none => rfl
  | some target =>
      rcases h with hnone | hstatic
      · cases hnone
      · rw [releaseFor, hstatic]
        rfl

theorem releaseFor_sound (hbelow : below.Sound host)
    (hlater : ∀ a : Act, call + 1 ≤ a.call → allowed a)
    (hreleased : ∀ id target ok, allowed (.released call id target ok)) (id : SourceId)
    (source : Source κ) (target : Option TargetId) (m : MethodSignature) (outcome : Result) :
    Sound host allowed (call + 1) (releaseFor host below call id source target m outcome) := by
  cases target with
  | none => exact .pure _
  | some target =>
      unfold releaseFor
      dsimp only
      split
      · exact .pure _
      · apply (release_sound hbelow hlater id target).bind
        intro released
        apply (Sound.record_act (hreleased id target _) (Nat.lt_succ_self call)).bind
        intro _
        cases released with
        | ok _ => exact .pure _
        | error e =>
            apply (Sound.log _).bind
            intro _
            cases outcome with
            | ok value => exact .pure _
            | error own => exact .pure _

theorem settledCall_sound (hbelow : below.Sound host) (hown : ∀ a : Act, call ≤ a.call → allowed a)
    (p : ProxyId) (proxy : Proxy) (id : SourceId) (source : Source κ) (m : MethodSignature)
    (arguments : List Value) (chain : Chain κ) :
    Sound host allowed (call + 1) (do
      match ← acquireFor host below call id with
      | .error e => return .error e
      | .ok target =>
        let outcome ← runChain host below call p m arguments target source.type chain
        releaseFor host below call id source target m (← finishCall p proxy m target outcome)) := by
  have hpermits := permits_of_new hown (Nat.le_refl call)
  refine (acquireFor_sound hbelow hpermits.later (fun _ _ => hown _ (Nat.le_refl call))
    (fun _ => hown _ (Nat.le_refl call)) id).bind fun acquired => ?_
  cases acquired with
  | error e => exact .pure _
  | ok target =>
      refine (runChain_sound hbelow hpermits p m arguments target source.type chain).bind
        fun outcome => (finishCall_sound p proxy m target outcome).bind fun result => ?_
      exact releaseFor_sound hbelow hpermits.later (fun _ _ _ => hown _ (Nat.le_refl call)) id
        source target m result

theorem runSettled_sound (hbelow : below.Sound host)
    (hnew : ∀ a : Act, begun ≤ a.call → allowed a) (p : ProxyId) (proxy : Proxy) (id : SourceId)
    (source : Source κ) (m : MethodSignature) (arguments : List Value) (chain : Chain κ) :
    Sound host allowed begun (runSettled host below p proxy id source m arguments chain) :=
  .beginCall_bind fun _ hcall => settledCall_sound hbelow
    (fun a ha => hnew a (Nat.le_trans hcall ha)) p proxy id source m arguments chain

theorem directCall_sound (hbelow : below.Sound host) (hown : ∀ a : Act, call ≤ a.call → allowed a)
    (p : ProxyId) (proxy : Proxy) (id : SourceId) (m : MethodSignature) (arguments : List Value) :
    Sound host allowed (call + 1) (do
      match ← acquireFor host below call id with
      | .error e => return .error e
      | .ok none => return .error (.noTarget m.text)
      | .ok (some target) =>
        finishCall p proxy m (some target)
          (← reachDirectly host below call target m arguments)) := by
  have hpermits := permits_of_new hown (Nat.le_refl call)
  refine (acquireFor_sound hbelow hpermits.later (fun _ _ => hown _ (Nat.le_refl call))
    (fun _ => hown _ (Nat.le_refl call)) id).bind fun acquired => ?_
  cases acquired with
  | error e => exact .pure _
  | ok target =>
      cases target with
      | none => exact .pure _
      | some target =>
          apply (reachDirectly_sound hbelow hpermits target m arguments).bind
          intro result
          exact finishCall_sound p proxy m (some target) result

theorem dispatchTarget_sound (hbelow : below.Sound host)
    (hnew : ∀ a : Act, begun ≤ a.call → allowed a) (p : ProxyId) (proxy : Proxy) (id : SourceId)
    (m : MethodSignature) (arguments : List Value) :
    Sound host allowed begun (dispatchTarget host below p proxy id m arguments) :=
  .beginCall_bind fun _ hcall => directCall_sound hbelow
    (fun a ha => hnew a (Nat.le_trans hcall ha)) p proxy id m arguments

end OneCall

theorem invokeAdvised_sound (hbelow : below.Sound host)
    (hnew : ∀ a : Act, begun ≤ a.call → allowed a) (p : ProxyId) (proxy : Proxy)
    (c : Configuration κ) (source : Source κ) (m : MethodSignature) (arguments : List Value)
    (fixed : Option (Chain κ)) :
    Sound host allowed begun
      (invokeAdvised host below p proxy c source m arguments fixed) := by
  refine whileExposed_sound ?_ _ p
  cases fixed with
  | some chain => exact runSettled_sound hbelow hnew p proxy _ source m arguments chain
  | none =>
      apply (chainFor_sound hbelow hnew proxy.configuration m source.type).bind
      intro found
      cases found with
      | error e => exact .pure _
      | ok chain => exact runSettled_sound hbelow hnew p proxy _ source m arguments chain

theorem identityAnswer_sound (p : ProxyId) (m : MethodSignature) (arguments : List Value)
    (equalsDefined hashDefined : Bool) :
    Sound host allowed begun
      (identityAnswer p m arguments equalsDefined hashDefined : Run κ σ ν (Option Result)) := by
  rw [identityAnswer]
  split
  · split
    · exact .pure _
    · exact .get_bind (fun w => .pure _) fun _ _ => rfl
  · split
    · exact .pure _
    · exact .get_bind (fun w => .pure _) fun _ _ => rfl
  · exact (Sound.trace _).bind fun _ => .pure _
  · exact .pure _

theorem withProxy_sound {p : ProxyId} {m : MethodSignature}
    {body : Proxy → Configuration κ → Source κ → Run κ σ ν Result}
    (hbody : ∀ proxy c source, Sound host allowed begun (body proxy c source)) :
    Sound host allowed begun (withProxy p m body) := by
  rw [withProxy]
  refine .get_bind (fun w => ?_) fun _ _ => rfl
  split
  · exact .pure _
  · split
    · exact .pure _
    · split
      · exact .pure _
      · exact hbody _ _ _

theorem withProxy_run {p : ProxyId} {proxy : Proxy} {c : Configuration κ} {source : Source κ}
    {m : MethodSignature} {body : Proxy → Configuration κ → Source κ → Run κ σ ν Result}
    {w : World κ σ ν} (hp : w.proxies[p]? = some proxy)
    (hc : w.configurations[proxy.configuration]? = some c)
    (hsource : w.sources[c.source]? = some source) :
    (withProxy p m body).run w = (body proxy c source).run w := by
  rw [withProxy, get_bind_run]
  simp only [hp, hc, hsource]

theorem routeByContracts_sound (hbelow : below.Sound host)
    (hnew : ∀ a : Act, begun ≤ a.call → allowed a) (d : ContractDispatcher) (p : ProxyId)
    (m : MethodSignature) (arguments : List Value) :
    Sound host allowed begun (routeByContracts host below d p m arguments) := by
  refine withProxy_sound fun proxy c source => ?_
  apply (identityAnswer_sound p m arguments _ _).bind
  intro own
  cases own with
  | some result => exact .pure _
  | none =>
      dsimp only
      split
      · exact .pure _
      · exact invokeAdvised_sound hbelow hnew p proxy c source m arguments none

section Callbacks

theorem accept_sound (hbelow : below.Sound host)
    (hnew : ∀ a : Act, begun ≤ a.call → allowed a) (d : SubclassDispatcher κ)
    (id : ConfigurationId) (source : Source κ) (m : MethodSignature) :
    Sound host allowed begun (accept host below d id source m) := by
  rw [accept]
  split
  · exact .pure _
  · split
    · exact .pure _
    · split
      · exact .pure _
      · refine .get_bind (fun w => ?_) fun _ _ => rfl
        split
        · exact .pure _
        · apply (chainFor_sound hbelow hnew id m _).bind
          intro found
          cases found with
          | error e => exact .pure _
          | ok chain => exact .pure _

theorem callbackFor_not_own (d : SubclassDispatcher κ) (c : Configuration κ) (isStatic : Bool)
    (m : MethodSignature) (chain : Chain κ) : (callbackFor d c isStatic m chain).isOwn = false := by
  rw [callbackFor]
  split
  · split
    · rfl
    · split
      · split
        · rfl
        · rfl
      · rfl
  · split
    · rfl
    · split
      · rfl
      · rfl

/-- For a method that the proxy keeps to itself a callback to that effect is chosen at once. -/
theorem accept_kept (host : Host κ σ ν) (below : Handler κ σ ν) {d : SubclassDispatcher κ}
    {m : MethodSignature} (h : d.keeps m = true) (id : ConfigurationId) (source : Source κ)
    (w : World κ σ ν) :
    ∃ own, own.isOwn = true ∧
      (accept host below d id source m).run w = some (.ok own, w) := by
  rw [SubclassDispatcher.keeps, MethodSignature.isOwn] at h
  rw [accept]
  cases hkind : m.kind with
  | regular =>
      rw [hkind] at h
      cases h
  | finalize => exact ⟨.noOverride, rfl, rfl⟩
  | equals =>
      rw [hkind] at h
      have hdefined : d.targetType.definesEquals = false := by simpa using h
      simp only [hdefined]
      exact ⟨.proxyEquals, rfl, rfl⟩
  | hashCode =>
      rw [hkind] at h
      have hdefined : d.targetType.definesHash = false := by simpa using h
      simp only [hdefined]
      exact ⟨.proxyHash, rfl, rfl⟩

/-- For any other method its chain decides. -/
theorem accept_leaves {d : SubclassDispatcher κ} {m : MethodSignature} (h : d.keeps m = false)
    (id : ConfigurationId) (source : Source κ) :
    accept host below d id source m = (do
      match (← get).configurations[id]? with
      | none => return .ok .advised
      | some c =>
        match ← chainFor host below id m (some d.targetType) with
        | .error e => return .error e
        | .ok chain => return .ok (callbackFor d c source.isStatic m chain)) := by
  rw [SubclassDispatcher.keeps, MethodSignature.isOwn] at h
  rw [accept]
  cases hkind : m.kind with
  | regular => rfl
  | finalize =>
      rw [hkind] at h
      cases h
  | equals =>
      rw [hkind] at h
      have hdefined : d.targetType.definesEquals = true := by simpa using h
      rw [hdefined]
      rfl
  | hashCode =>
      rw [hkind] at h
      have hdefined : d.targetType.definesHash = true := by simpa using h
      rw [hdefined]
      rfl

/-- How a callback is chosen: the proxy keeps the method to itself, or the chain decides. -/
theorem accept_run {d : SubclassDispatcher κ} {id : ConfigurationId} {source : Source κ}
    {m : MethodSignature} {callback : Callback κ} {w w' : World κ σ ν}
    (h : (accept host below d id source m).run w = some (.ok callback, w')) :
    (d.keeps m = true ∧ callback.isOwn = true ∧ w' = w) ∨
      (d.keeps m = false ∧ callback = .advised ∧ w.configurations[id]? = none ∧ w' = w) ∨
      ∃ c chain, d.keeps m = false ∧ w.configurations[id]? = some c ∧
        (chainFor host below id m (some d.targetType)).run w = some (.ok chain, w') ∧
        callback = callbackFor d c source.isStatic m chain := by
  cases hkeeps : d.keeps m with
  | true =>
      obtain ⟨own, hown, hrun⟩ := accept_kept host below hkeeps id source w
      rw [hrun] at h
      cases h
      exact .inl ⟨rfl, hown, rfl⟩
  | false =>
      rw [accept_leaves hkeeps, get_bind_run] at h
      cases hc : w.configurations[id]? with
      | none =>
          rw [hc] at h
          cases h
          exact .inr (.inl ⟨rfl, rfl, rfl, rfl⟩)
      | some c =>
          rw [hc] at h
          obtain ⟨found, v, hv, hrest⟩ := run_bind_eq_some.mp h
          cases found with
          | error e => cases hrest
          | ok chain =>
              cases hrest
              exact .inr (.inr ⟨c, chain, rfl, rfl, hv, rfl⟩)

theorem accept_own {d : SubclassDispatcher κ} {id : ConfigurationId} {source : Source κ}
    {m : MethodSignature} {callback : Callback κ} {w w' : World κ σ ν}
    (h : (accept host below d id source m).run w = some (.ok callback, w')) :
    callback.isOwn = d.keeps m := by
  rcases accept_run h with ⟨hkeeps, hown, _⟩ | ⟨hkeeps, rfl, _⟩ | ⟨c, chain, hkeeps, _, _, rfl⟩
  · rw [hkeeps, hown]
  · rw [hkeeps]
    rfl
  · rw [hkeeps]
    exact callbackFor_not_own d c source.isStatic m chain

theorem callbackFor_backed {d : SubclassDispatcher κ} {c c' : Configuration κ}
    {source : Source κ} {m : MethodSignature} {chain : Chain κ} (hlater : c.Later c')
    (hremembers : c.frozen = true → c'.Remembers d.targetType m.key chain)
    (hmade : d.MadeFor c' source) :
    (callbackFor d c source.isStatic m chain).Backed c' source d.targetType m.key := by
  rw [callbackFor]
  split
  · split
    · trivial
    · split
      · split
        · rename_i fixed hfixed
          exact hmade.2 m.key fixed hfixed
        · trivial
      · trivial
  · -- the chain is empty and the configuration frozen
    rename_i hplain
    obtain ⟨hempty, hfrozen⟩ : chain = [] ∧ c.frozen = true := by simpa using hplain
    subst hempty
    have hnone := hremembers hfrozen
    split
    · exact hnone
    · rename_i hdirect
      obtain ⟨hexposed, hstatic⟩ : c.flags.exposeProxy = false ∧ source.isStatic = true := by
        simpa using hdirect
      split
      · exact hnone
      · refine ⟨hnone, ?_, hstatic⟩
        rw [hlater.flags]
        exact hexposed

/-- A chosen callback can rely on what it takes for granted. -/
theorem accept_backed (hbelow : below.Sound host) {d : SubclassDispatcher κ}
    {id : ConfigurationId} {source : Source κ} {m : MethodSignature} {callback : Callback κ}
    {w w' : World κ σ ν}
    (h : (accept host below d id source m).run w = some (.ok callback, w'))
    {c' : Configuration κ} (hc' : w'.configurations[id]? = some c') (hmade : d.MadeFor c' source) :
    callback.Backed c' source d.targetType m.key := by
  rcases accept_run h with ⟨_, hown, _⟩ | ⟨_, rfl, _⟩ | ⟨c, chain, _, hc, hchain, rfl⟩
  · cases callback with
    | noOverride => trivial
    | proxyEquals => trivial
    | proxyHash => trivial
    | _ => cases hown
  · trivial
  · have hsettled : w.Later w' :=
      Sound.later (chainFor_sound hbelow (fun _ _ => trivial) id m (some d.targetType)) hchain
    obtain ⟨c₁, hc₁, hlater⟩ := hsettled.configurations id c hc
    obtain rfl : c₁ = c' := Option.some.inj (hc₁.symm.trans hc')
    refine callbackFor_backed hlater (fun hfrozen => ?_) hmade
    obtain ⟨c₂, hc₂, hstill, hfound⟩ := chainFor_remembers hbelow hc hfrozen hchain
    obtain rfl : c₂ = c₁ := Option.some.inj (hc₂.symm.trans hc')
    exact ⟨hstill, hfound⟩

theorem callbackOf_sound (hbelow : below.Sound host)
    (hnew : ∀ a : Act, begun ≤ a.call → allowed a) (dispatcher : DispatcherId)
    (id : ConfigurationId) (source : Source κ) (m : MethodSignature) :
    Sound host allowed begun (callbackOf host below dispatcher id source m) := by
  intro w hw
  rw [callbackOf]
  refine .get_bind ?_ fun _ => rfl
  split
  · exact .pure _ _
  · rename_i d hd
    split
    · exact .pure _ _
    · have haccept := accept_sound hbelow hnew d id source m w hw
      apply haccept.bind
      intro chosen v hv
      cases chosen with
      | error e => exact .pure _ _
      | ok callback =>
          obtain ⟨d', hd', hlater⟩ := (haccept.leads hv).later.dispatchers dispatcher d hd
          have hkeeps : d'.keeps m = d.keeps m := by
            rw [SubclassDispatcher.keeps, hlater.targetType]
            rfl
          have hown : callback.isOwn = d'.keeps m := (accept_own hv).trans hkeeps.symm
          have hbacked : ∀ c, v.configurations[id]? = some c → d'.MadeFor c source →
              callback.Backed c source d'.targetType m.key := by
            intro c hc hmade
            rw [SubclassDispatcher.MadeFor, hlater.targetType, hlater.fixedChains] at hmade
            rw [hlater.targetType]
            exact accept_backed hbelow hv hc hmade
          apply (SoundAt.record fun a ha => by cases ha).bind
          intro _ v' hv'
          cases hv'
          refine (SoundAt.modify (.chose (w := v.record _) hd' hown hbacked)
            fun _ _ => rfl).bind fun _ v' _ => ?_
          exact .get_bind (.pure _ _) fun _ => rfl

end Callbacks

theorem perform_sound (hbelow : below.Sound host)
    (hnew : ∀ a : Act, begun ≤ a.call → allowed a) (callback : Callback κ) (p : ProxyId)
    (proxy : Proxy) (c : Configuration κ) (source : Source κ) (m : MethodSignature)
    (arguments : List Value) :
    Sound host allowed begun (perform host below callback p proxy c source m arguments) := by
  cases callback with
  | advised => exact invokeAdvised_sound hbelow hnew p proxy c source m arguments none
  | fixedChain chain =>
      exact invokeAdvised_sound hbelow hnew p proxy c source m arguments (some chain)
  | invokeTarget => exact invokeAdvised_sound hbelow hnew p proxy c source m arguments (some [])
  | dispatchTarget => exact dispatchTarget_sound hbelow hnew p proxy c.source m arguments
  | _ => exact (identityAnswer_sound p m arguments false false).bind fun _ => .pure _

theorem routeBySubclass_sound (hbelow : below.Sound host)
    (hnew : ∀ a : Act, begun ≤ a.call → allowed a) (dispatcher : DispatcherId) (p : ProxyId)
    (m : MethodSignature) (arguments : List Value) :
    Sound host allowed begun (routeBySubclass host below dispatcher p m arguments) := by
  refine withProxy_sound fun proxy c source => ?_
  apply (callbackOf_sound hbelow hnew dispatcher _ source m).bind
  intro chosen
  cases chosen with
  | error e => exact .pure _
  | ok callback => exact perform_sound hbelow hnew callback p proxy c source m arguments

theorem invoke_sound (hbelow : below.Sound host)
    (hnew : ∀ a : Act, begun ≤ a.call → allowed a) (p : ProxyId) (m : MethodSignature)
    (arguments : List Value) : Sound host allowed begun (invoke host below p m arguments) := by
  rw [invoke]
  refine .get_bind (fun w => ?_) fun _ _ => rfl
  split
  · exact .pure _
  · apply (Sound.trace _).bind
    intro _
    split
    · exact routeByContracts_sound hbelow hnew _ p m arguments
    · exact routeBySubclass_sound hbelow hnew _ p m arguments

end Weaving.Run
