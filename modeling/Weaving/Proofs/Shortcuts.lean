import Weaving.Access
import Weaving.Proofs.Exposure

/-
The callbacks of the subclass strategy are shortcuts of the full course of a call.  A callback that
was chosen under a frozen configuration takes for granted what the configuration remembers, and that
stays remembered; so at any later time it comes out alike with the general path, log lines apart.
-/
namespace Weaving.Run

variable {κ σ ν α β : Type} {host : Host κ σ ν} {below : Handler κ σ ν}

/-- What follows the same computation may be compared where that computation ended. -/
theorem Alike.bind_same {x : Run κ σ ν α} {f g : α → Run κ σ ν β} {w : World κ σ ν}
    (hfg : ∀ a v, x.run w = some (a, v) → Alike ((f a).run v) ((g a).run v)) :
    Alike ((x >>= f).run w) ((x >>= g).run w) := by
  rw [StateT.run_bind, StateT.run_bind]
  cases hx : x.run w with
  | none => exact .none
  | some p => exact hfg p.1 p.2 hx

/-- A line logged beforehand makes no difference to a sound computation. -/
theorem SoundAt.alike_trace {allowed : Act → Prop} {x : Run κ σ ν α} {w : World κ σ ν}
    (hx : SoundAt host allowed x w) (message : String) :
    Alike (x.run w) ((trace message >>= fun _ => x).run w) :=
  hx.blind (World.alike_record_line w _)

/-- A chain that is remembered need not be looked up. -/
theorem invokeAdvised_of_remembered {p : ProxyId} {proxy : Proxy} {c : Configuration κ}
    {source : Source κ} {type : TypeInfo} {m : MethodSignature} {arguments : List Value}
    {chain : Chain κ} {w : World κ σ ν} (hc : w.configurations[proxy.configuration]? = some c)
    (htype : source.type = some type) (hremembers : c.Remembers type m.key chain) :
    (invokeAdvised host below p proxy c source m arguments none).run w =
      (invokeAdvised host below p proxy c source m arguments (some chain)).run w := by
  have hfound : (chainFor host below proxy.configuration m source.type).run
      (w.exposing c.flags.exposeProxy p) =
        some (.ok chain, w.exposing c.flags.exposeProxy p) := by
    rw [htype]
    refine chainFor_of_remembered ?_ hremembers.1 hremembers.2
    rw [World.configurations_exposing]
    exact hc
  simp only [invokeAdvised]
  rw [whileExposed_run, whileExposed_run, StateT.run_bind, hfound]
  rfl

/-- Running an empty chain is reaching the target at once, a line logged beforehand. -/
theorem runSettled_nil {p : ProxyId} {proxy : Proxy} {id : SourceId} {source : Source κ}
    {m : MethodSignature} {arguments : List Value} (hbelow : below.Sound host)
    (hstatic : source.isStatic = true) (w : World κ σ ν) :
    Alike ((dispatchTarget host below p proxy id m arguments).run w)
      ((runSettled host below p proxy id source m arguments []).run w) := by
  refine Alike.bind_same fun call v₀ hbegin => Alike.bind_same fun acquired v hacquired => ?_
  cases hbegin
  cases acquired with
  | error e => exact .refl _
  | ok target =>
      cases target with
      | none => exact .some ⟨rfl, World.alike_record_line v _⟩
      | some target =>
          have hpermits := Permits.anything w.calls 0
          have hacquire : Sound host (fun _ => True) (w.calls + 1)
              (acquireFor host below w.calls id) :=
            acquireFor_sound hbelow (fun _ _ => trivial) (fun _ _ => trivial) (fun _ => trivial) id
          have hcalls := ((hacquire _ (Nat.le_refl _)).leads hacquired).later.calls
          have hreach : Sound host (fun _ => True) (w.calls + 1)
              (reachDirectly host below w.calls target m arguments >>= fun result =>
                finishCall p proxy m (some target) result) :=
            (reachDirectly_sound hbelow hpermits target m arguments).bind fun result =>
              finishCall_sound p proxy m (some target) result
          have hsame := (hreach v hcalls).alike_trace
            ("No interceptors for " ++ m.text ++ ", invoking target directly")
          have hkept : ∀ result : Result,
              releaseFor host below w.calls id source (some target) m result = pure result :=
            fun result => releaseFor_kept (.inr hstatic)
          simp only [hkept, bind_pure]
          simp only [runChain, List.isEmpty_nil, if_true, bind_assoc]
          exact hsame

/-- A callback comes out alike with the full course of a call where it can rely on what it takes for
granted. -/
theorem perform_alike (hbelow : below.Sound host) {p : ProxyId} {proxy : Proxy}
    {c : Configuration κ} {source : Source κ} {type : TypeInfo} {m : MethodSignature}
    {arguments : List Value} {callback : Callback κ} {w : World κ σ ν}
    (hc : w.configurations[proxy.configuration]? = some c) (htype : source.type = some type)
    (hbacked : callback.Backed c source type m.key) (hown : callback.isOwn = false) :
    Alike ((perform host below callback p proxy c source m arguments).run w)
      ((invokeAdvised host below p proxy c source m arguments none).run w) := by
  cases callback with
  | advised => exact .refl _
  | fixedChain chain =>
      rw [invokeAdvised_of_remembered hc htype hbacked]
      exact .refl _
  | invokeTarget =>
      rw [invokeAdvised_of_remembered hc htype hbacked]
      exact .refl _
  | dispatchTarget =>
      obtain ⟨hremembers, hexposed, hstatic⟩ := hbacked
      rw [invokeAdvised_of_remembered hc htype hremembers, invokeAdvised, hexposed]
      exact runSettled_nil hbelow hstatic w
  | noOverride => cases hown
  | proxyEquals => cases hown
  | proxyHash => cases hown

/-- The callback that is chosen for a method of a subclass proxy comes out alike with the full
course of a call, then and at any later time, also for another method with the same key. -/
theorem accept_agrees_with_advised (host : Host κ σ ν) (depth : Nat) (p : ProxyId) (proxy : Proxy)
    (dispatcher : DispatcherId) (d : SubclassDispatcher κ) (c : Configuration κ)
    (source : Source κ) (m : MethodSignature) (callback : Callback κ) (w w₁ : World κ σ ν)
    (hw : World.Reachable host w) (hproxy : w.proxies[p]? = some proxy)
    (hdispatch : proxy.dispatch = .subclass dispatcher)
    (hd : w.dispatchers[dispatcher]? = some d)
    (hc : w.configurations[proxy.configuration]? = some c)
    (hsource : w.sources[c.source]? = some source) (hregular : d.keeps m = false)
    (haccept : (accept host (answer host depth) d proxy.configuration source m).run w =
      some (.ok callback, w₁)) (m' : MethodSignature) (hkey : m'.key = m.key)
    (arguments : List Value) (w₂ : World κ σ ν) (hlater : w₁.Leads host (fun _ => True) w₂) :
    Alike
      ((withProxy p m' fun proxy c source =>
        perform host (answer host depth) callback p proxy c source m' arguments).run w₂)
      ((withProxy p m' fun proxy c source =>
        invokeAdvised host (answer host depth) p proxy c source m' arguments none).run w₂) := by
  have hbelow := answer_sound host depth
  have hown : callback.isOwn = false := (accept_own haccept).trans hregular
  have hmade : d.MadeFor c source := by
    obtain ⟨c₀, source₀, hc₀, hsource₀, hparts⟩ := hw.wellFormed.fits p proxy hproxy
    obtain rfl : c₀ = c := Option.some.inj (hc₀.symm.trans hc)
    obtain rfl : source₀ = source := Option.some.inj (hsource₀.symm.trans hsource)
    rw [hdispatch] at hparts
    obtain ⟨d₀, hd₀, hmade, _⟩ := hparts
    obtain rfl : d₀ = d := Option.some.inj (hd₀.symm.trans hd)
    exact hmade
  have hlater₁ : w.Later w₁ :=
    Sound.later (accept_sound hbelow (fun _ _ => trivial) d proxy.configuration source m) haccept
  obtain ⟨c₁, hc₁, hsame₁⟩ := hlater₁.configurations _ c hc
  have hmade₁ : d.MadeFor c₁ source := by
    simpa using hmade.later (.refl d) hsame₁ fun pool => pool
  have hbacked₁ : callback.Backed c₁ source d.targetType m.key :=
    accept_backed hbelow haccept hc₁ hmade₁
  obtain ⟨c₂, hc₂, hsame₂⟩ := hlater.later.configurations _ c₁ hc₁
  have hlater₂ := hlater₁.trans hlater.later
  obtain ⟨change, hsource₂⟩ := hlater₂.sources _ source hsource
  rw [← (hsame₁.trans hsame₂).source] at hsource₂
  have htype : (source.mapPool change).type = some d.targetType := by
    rw [Source.type_mapPool]
    exact hmade.1
  have hbacked₂ := hbacked₁.later hsame₂ change
  rw [← hkey] at hbacked₂
  have hproxy₂ := hlater₂.proxies p proxy hproxy
  rw [withProxy_run hproxy₂ hc₂ hsource₂, withProxy_run hproxy₂ hc₂ hsource₂]
  exact perform_alike hbelow hc₂ htype hbacked₂ hown

section Direct

def directType : TypeInfo := ⟨2, "Service", [], false, false, false⟩

def directMethod : MethodSignature := { declaringType := directType, name := "run" }

/-- Makes a frozen subclass proxy of one target, without advice. -/
def directSetup : Code Unit Unit Unit (Except AopError ProxyId) := do
  let target ← Code.ask (.newTarget directType ())
  let source ← Code.ask (.newSource (.singleton target directType))
  Code.ask (.makeProxy { flags := { frozen := true }, source := some source })

def directWorld : World Unit Unit Unit := worldAfter Host.idle 1 directSetup (.initial ())

/-- The target of a static source is reached at once, as if in the full course of the call. -/
theorem accept_agrees_with_advised_direct :
    ∃ w₁, (accept Host.idle (answer Host.idle 1) ⟨directType, [], []⟩ 0 (.singleton 0 directType)
        directMethod).run directWorld = some (.ok .dispatchTarget, w₁) ∧
      Alike
        ((withProxy 0 directMethod fun proxy c source =>
          perform Host.idle (answer Host.idle 1) .dispatchTarget 0 proxy c source directMethod
            []).run w₁)
        ((withProxy 0 directMethod fun proxy c source =>
          invokeAdvised Host.idle (answer Host.idle 1) 0 proxy c source directMethod [] none).run
            w₁) := by
  have hreachable : World.Reachable Host.idle directWorld :=
    worldAfter_reachable (.initial ()) 1 directSetup
  obtain ⟨c, hc⟩ : ∃ c, directWorld.configurations[0]? = some c := ⟨_, rfl⟩
  obtain ⟨w₁, haccept⟩ : ∃ w₁, (accept Host.idle (answer Host.idle 1) ⟨directType, [], []⟩ 0
      (.singleton 0 directType) directMethod).run directWorld =
        some (.ok .dispatchTarget, w₁) := ⟨_, rfl⟩
  have hsource : directWorld.sources[c.source]? = some (.singleton 0 directType) := by
    cases hc
    rfl
  refine ⟨w₁, haccept, ?_⟩
  exact accept_agrees_with_advised Host.idle 1 0 ⟨0, .subclass 0, [directType]⟩ 0
    ⟨directType, [], []⟩ c (.singleton 0 directType) directMethod .dispatchTarget directWorld w₁
    hreachable rfl rfl rfl hc hsource rfl haccept directMethod rfl [] w₁ (.refl w₁)

end Direct

end Weaving.Run
