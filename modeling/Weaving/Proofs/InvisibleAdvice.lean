import Weaving.Proofs.Contributions
import Weaving.Proofs.Endings
import Weaving.Proofs.ServedCalls

/-
Advice that passes calls on is invisible.  A call under such advice reaches the target that it has
taken exactly once, with the arguments of the caller, and comes to what is made of the target's own
result; whether there is any advice makes no difference to that.
-/
namespace Weaving

variable {κ σ ν α : Type} {host : Host κ σ ν} {below : Handler κ σ ν} {m m' : MethodSignature}

/-- Whatever chains a configuration builds for the key of a method, they pass the calls of the
method on. -/
inductive Configuration.PassesOn (host : Host κ σ ν) (m : MethodSignature)
    (c : Configuration κ) : Prop where
  /-- All interceptors of all advice pass the calls on. -/
  | adapted {registry : AdapterRegistry κ} (factory : c.chainFactory = .standard registry)
      (passes : ∀ a ∈ c.advisors, ∃ interceptors,
        registry.interceptors a.advice = .ok interceptors ∧
          ∀ i ∈ interceptors, i.action.PassesOn host m)
  /-- The user's own code puts only such interceptors into its chains. -/
  | custom {code : κ} (factory : c.chainFactory = .custom code)
      (passes : ∀ (advisors : List (Advisor κ)) (m' : MethodSignature) (target : Option TypeInfo),
        m'.key = m.key → (host.chain code advisors c.flags.preFiltered m' target).Gives
          fun built => ∃ chain, built = .ok chain ∧ chain.PassesOn host m)

theorem Program.Gives.of_run {code : Code κ σ ν α} {wanted : α → Prop} {a : α}
    {w w' : World κ σ ν} (hgives : code.Gives wanted)
    (h : (code.run below).run w = some (a, w')) : wanted a := by
  induction code generalizing w with
  | done b =>
      cases h
      exact hgives
  | ask r resume ih =>
      obtain ⟨b, v, _, hrest⟩ := Run.run_bind_eq_some.mp h
      exact ih b (hgives b) hrest

theorem Advisor.entry_interceptor (a : Advisor κ) (i : Interceptor κ) :
    (a.entry i).interceptor = i := by
  cases a with
  | pointcut rule advice =>
      rw [entry]
      split
      · rfl
      · rfl
  | _ => rfl

/-- Advisors whose advice passes calls on make a chain that does. -/
theorem Chain.Assembled.passesOn {registry : AdapterRegistry κ} {advisors : List (Advisor κ)}
    {outcome : Except AopError (Chain κ)} (h : Assembled registry advisors outcome)
    (hpasses : ∀ a ∈ advisors, ∃ interceptors, registry.interceptors a.advice = .ok interceptors ∧
      ∀ i ∈ interceptors, i.action.PassesOn host m) :
    ∃ chain, outcome = .ok chain ∧ chain.PassesOn host m := by
  cases h with
  | adapted blocks each =>
      refine ⟨_, rfl, fun entry hentry => ?_⟩
      obtain ⟨block, hblock, hentry⟩ := List.mem_flatten.mp hentry
      have hmade : (.ok block : Except AopError (Chain κ)) ∈ advisors.map (·.entries registry) := by
        rw [each]
        exact List.mem_map_of_mem hblock
      obtain ⟨a, ha, hentries⟩ := List.mem_map.mp hmade
      obtain ⟨interceptors, hadapted, hall⟩ := hpasses a ha
      rw [Advisor.entries, hadapted] at hentries
      cases hentries
      obtain ⟨i, hi, rfl⟩ := List.mem_map.mp hentry
      rw [a.entry_interceptor i]
      exact hall i hi
  | @failed before after a e earlier fails =>
      obtain ⟨interceptors, hadapted, _⟩ := hpasses a (by simp)
      rw [fails] at hadapted
      cases hadapted

namespace Configuration.PassesOn

variable {c c' : Configuration κ}

/-- Of a configuration it takes only how chains are built to tell, and from what. -/
theorem congr (h : c.PassesOn host m) (hflags : c'.flags = c.flags)
    (hfactory : c'.chainFactory = c.chainFactory)
    (hadvisors : ∀ registry, c.chainFactory = .standard registry → c'.advisors = c.advisors) :
    c'.PassesOn host m := by
  cases h with
  | adapted factory passes =>
      refine .adapted (hfactory.trans factory) ?_
      rw [hadvisors _ factory]
      exact passes
  | custom factory passes =>
      refine .custom (hfactory.trans factory) ?_
      rw [hflags]
      exact passes

/-- Chains of such a configuration can be built, and pass calls on. -/
theorem buildChain (h : c.PassesOn host m) (hkey : m'.key = m.key) {target : Option TypeInfo}
    {built : Except AopError (Chain κ)} {w w' : World κ σ ν}
    (hbuilt : (Run.buildChain host below c m' target).run w = some (built, w')) :
    ∃ chain, built = .ok chain ∧ chain.PassesOn host m := by
  rw [Run.buildChain] at hbuilt
  cases h with
  | @adapted registry factory passes =>
      rw [factory] at hbuilt
      obtain ⟨_, _, hrun⟩ :=
        Run.buildFrom_run registry c.advisors c.flags.preFiltered m' target rfl rfl w
      cases hrun.symm.trans hbuilt
      exact (Chain.assemble_assembled registry _).passesOn fun a ha =>
        passes a (List.mem_filter.mp ha).1
  | custom factory passes =>
      rw [factory] at hbuilt
      exact (passes c.advisors m' target hkey).of_run hbuilt

/-- Where there are no advisors, no call is held up. -/
theorem of_no_advisors {registry : AdapterRegistry κ} (hfactory : c.chainFactory = .standard registry)
    (hnone : c.advisors = []) (host : Host κ σ ν) (m : MethodSignature) : c.PassesOn host m := by
  refine .adapted hfactory fun a ha => ?_
  rw [hnone] at ha
  cases ha

end Configuration.PassesOn

namespace Run

section Settling

variable {id : ConfigurationId} {c : Configuration κ} {target : Option TypeInfo}
  {w w' : World κ σ ν}

/-- Settling a chain changes nothing about a configuration that matters for what it builds. -/
theorem chainFor_passesOn (hbelow : below.Sound host) (hc : w.configurations[id]? = some c)
    (hpasses : c.PassesOn host m) {settled : Except AopError (Chain κ)}
    (h : (chainFor host below id m' target).run w = some (settled, w')) :
    ∃ c', w'.configurations[id]? = some c' ∧ c.Later c' ∧ c'.PassesOn host m := by
  have hlater : w.Later w' :=
    Sound.later (chainFor_sound hbelow (fun _ _ => trivial) id m' target) h
  obtain ⟨c', hc', hclater⟩ := hlater.configurations id c hc
  refine ⟨c', hc', hclater,
    hpasses.congr hclater.flags hclater.chainFactory fun registry hfactory => ?_⟩
  by_cases hfrozen : c.frozen = true
  · exact hclater.advisors hfrozen
  · -- building from advisors leaves all configurations as they are
    rw [chainFor_mutable hc (by simpa using hfrozen)] at h
    obtain ⟨v, hrun, hsame⟩ := buildChain_of_standard host below hfactory m' target w
    cases hrun.symm.trans h
    rw [hsame, hc] at hc'
    cases hc'
    rfl

/-- The chain that is settled for a call passes it on. -/
theorem chainFor_passing {identity : MethodKey → Prop} {depth : Nat}
    (hhost : host.Proper identity True) (hw : w.Visited host identity)
    (hc : w.configurations[id]? = some c) (hpasses : c.PassesOn host m)
    {settled : Except AopError (Chain κ)}
    (h : (chainFor host (answer host depth) id m target).run w = some (settled, w')) :
    ∃ chain, settled = .ok chain ∧ chain.PassesOn host m := by
  rcases settled with e | chain
  · obtain ⟨chain, hbuilt, _⟩ := hpasses.buildChain rfl (chainFor_error hc h)
    cases hbuilt
  · have hprescribes := chainFor_prescribes hhost hw hc h
    rcases hfrozen : c.frozen with _ | _
    · obtain ⟨_, hbuilt, hchain⟩ := hpasses.buildChain rfl (hprescribes.current hfrozen)
      cases hbuilt
      exact ⟨chain, rfl, hchain⟩
    · obtain ⟨m₀, target₀, hkey, depth₀, u, u', _, hmade⟩ := hprescribes.snapshot hfrozen
      obtain ⟨_, hbuilt, hchain⟩ := hpasses.buildChain (congrArg ChainKey.method hkey) hmade
      cases hbuilt
      exact ⟨chain, rfl, hchain⟩

/-- Choosing a callback does to configurations no more than settling a chain does. -/
theorem callbackOf_configurations {dispatcher : DispatcherId} {source : Source κ}
    {chosen : Except AopError (Callback κ)}
    (h : (callbackOf host below dispatcher id source m).run w = some (chosen, w')) :
    w'.configurations = w.configurations ∨ ∃ target settled v,
      (chainFor host below id m target).run w = some (settled, v) ∧
        w'.configurations = v.configurations := by
  rw [callbackOf, get_bind_run] at h
  rcases hd : w.dispatchers[dispatcher]? with _ | d
  · simp only [hd] at h
    cases h
    exact .inl rfl
  · simp only [hd] at h
    rcases hcallback : d.callback? m with _ | callback
    · simp only [hcallback] at h
      obtain ⟨accepted, u, haccept, h⟩ := run_bind_eq_some.mp h
      have hends : w'.configurations = u.configurations := by
        rcases accepted with e | callback
        · cases h
          rfl
        · obtain ⟨_, u₁, hlog, h⟩ := run_bind_eq_some.mp h
          obtain ⟨_, u₂, hremember, h⟩ := run_bind_eq_some.mp h
          cases hlog
          cases hremember
          cases h
          rfl
      rw [hends]
      by_cases hkeeps : d.keeps m = true
      · obtain ⟨own, _, hrun⟩ := accept_kept host below hkeeps id source w
        cases hrun.symm.trans haccept
        exact .inl rfl
      · rw [accept_leaves (by simpa using hkeeps), get_bind_run] at haccept
        rcases hc : w.configurations[id]? with _ | c
        · simp only [hc] at haccept
          cases haccept
          exact .inl rfl
        · simp only [hc] at haccept
          obtain ⟨settled, v, hsettled, haccept⟩ := run_bind_eq_some.mp haccept
          rcases settled with e | chain
          · cases haccept
            exact .inr ⟨_, _, _, hsettled, rfl⟩
          · cases haccept
            exact .inr ⟨_, _, _, hsettled, rfl⟩
    · simp only [hcallback] at h
      cases h
      exact .inl rfl

theorem callbackOf_passesOn (hbelow : below.Sound host) (hc : w.configurations[id]? = some c)
    (hpasses : c.PassesOn host m) {dispatcher : DispatcherId} {source : Source κ}
    {chosen : Except AopError (Callback κ)}
    (h : (callbackOf host below dispatcher id source m).run w = some (chosen, w')) :
    ∃ c', w'.configurations[id]? = some c' ∧ c.Later c' ∧ c'.PassesOn host m := by
  rcases callbackOf_configurations h with hsame | ⟨target, settled, v, hsettled, hsame⟩
  · exact ⟨c, hsame ▸ hc, .refl c, hpasses⟩
  · rw [hsame]
    exact chainFor_passesOn hbelow hc hpasses hsettled

end Settling

/-- How a call goes that nothing holds up, from the world in which its chain was settled to the one in
which the target has been given back. -/
inductive GoesThrough (host : Host κ σ ν) (below : Handler κ σ ν) (p : ProxyId) (proxy : Proxy)
    (id : SourceId) (source : Source κ) (m : MethodSignature) (arguments : List Value)
    (chain : Chain κ) (w : World κ σ ν) : Result → World κ σ ν → Prop where
  /-- The source fails to give a target; then nothing else is done. -/
  | refused {e : AopError} {v : World κ σ ν}
      (asked : (acquire host below id).run { w with calls := w.calls + 1 } = some (.error e, v)) :
      GoesThrough host below p proxy id source m arguments chain w (.error e)
        (v.record (.act (.refused w.calls id)))
  /-- The source gives none; then nobody is reached, and there is nothing to give back. -/
  | nothing {result : Result} {w' : World κ σ ν}
      (answered : Answered host below p proxy id source m arguments chain w none .target arguments
        (.error (.noTarget m.text)) (.ok ()) result w') :
      GoesThrough host below p proxy id source m arguments chain w result w'
  /-- The target that the source gives is reached once, with the arguments of the caller. -/
  | target {t : TargetId} {own : Result} {given : Except AopError Unit} {result : Result}
      {w' : World κ σ ν}
      (answered : Answered host below p proxy id source m arguments chain w (some t) .target
        arguments own given result w') :
      GoesThrough host below p proxy id source m arguments chain w result w'

/-- A response through a chain that passes the call on is the target's. -/
theorem GoesThrough.of_responds {p : ProxyId} {proxy : Proxy} {id : SourceId} {source : Source κ}
    {arguments : List Value} {chain : Chain κ} {w w' : World κ σ ν} {result : Result}
    (hpasses : chain.PassesOn host m)
    (h : Responds host below p proxy id source m arguments chain w result w') :
    GoesThrough host below p proxy id source m arguments chain w result w' := by
  cases h with
  | refused asked _ => exact .refused asked
  | @answered target _ _ _ _ _ _ answered =>
      obtain ⟨rfl, rfl⟩ := answered.meets.target_of_passesOn hpasses
      cases target with
      | some t => exact .target answered
      | none =>
          obtain rfl := answered.nobody rfl rfl
          obtain rfl := answered.nothing_given rfl
          exact .nothing answered

end Run

section Calls

open Run

variable {identity : MethodKey → Prop} {depth : Nat} {p : ProxyId} {proxy : Proxy}
  {c : Configuration κ} {source : Source κ} {arguments : List Value} {w w' u : World κ σ ν}
  {result : Result}

/-- Taking a call on changes nothing about a configuration that matters for what it builds. -/
theorem TakenOn.passesOn (h : TakenOn host below proxy source m w u) (hbelow : below.Sound host)
    (hc : w.configurations[proxy.configuration]? = some c) (hpasses : c.PassesOn host m) :
    ∃ c', u.configurations[proxy.configuration]? = some c' ∧ c'.PassesOn host m := by
  cases h with
  | contracts _ => exact ⟨c, hc, hpasses⟩
  | callbacks _ chosen =>
      obtain ⟨c', hc', _, hpasses'⟩ := callbackOf_passesOn hbelow hc hpasses chosen
      exact ⟨c', hc', hpasses'⟩

/-- A call that its proxy takes on has a chain if its configuration builds such as pass it on, and the
chain does. -/
theorem Course.passes (hhost : host.Proper identity True) (haccepts : proxy.Accepts m)
    {taken : Option (Passage κ σ ν)}
    (hc : w.configurations[proxy.configuration]? = some c) (hpasses : c.PassesOn host m)
    (h : Course host identity depth p proxy source m arguments w taken result w') :
    ∃ passage, taken = some passage ∧ passage.chain.PassesOn host m := by
  have hbelow := answer_sound host depth
  cases h with
  | @refused d _ byContracts foreign only =>
      obtain ⟨hordinary, hforeign⟩ := foreign
      rcases haccepts d byContracts with hroot | hours
      · exact absurd (hroot.symm.trans hordinary) nofun
      · exact absurd (hours.symm.trans hforeign) nofun
  | unchosen byCallbacks inForce failed ends =>
      cases hc.symm.trans inForce
      obtain ⟨_, hbuilt, _⟩ := hpasses.buildChain rfl failed
      cases hbuilt
  | unbuilt takenOn visited inForce failed ends =>
      obtain ⟨c', hc', hpasses'⟩ := takenOn.passesOn hbelow hc hpasses
      cases hc'.symm.trans inForce
      obtain ⟨_, hbuilt, _⟩ := hpasses'.buildChain rfl failed
      cases hbuilt
  | ran takenOn visited inForce settling settled running ends =>
      obtain ⟨c', hc', hpasses'⟩ := takenOn.passesOn hbelow hc hpasses
      cases hc'.symm.trans inForce
      rw [← World.configurations_exposing] at hc'
      obtain ⟨_, hchain, hforwards⟩ :=
        chainFor_passing hhost (visited.exposing _ p) hc' hpasses' settling
      cases hchain
      exact ⟨_, rfl, hforwards⟩

end Calls

namespace Run

/-- Advice that passes calls on is invisible.  Whatever there is of it, an ordinary call that its
proxy takes on has a chain, and reaches the target that its source gives exactly once, with the
arguments of the caller; its client gets what is made of the target's own result, and nothing but the
giving back of the target comes after.  The call comes to an end if the requests of user code are
answered.  Where there are no advisors the same holds, and what the client gets is determined by the
target's own result and by whether the target could be given back. -/
theorem passing_advice_is_invisible (host : Host κ σ ν) (identity : MethodKey → Prop)
    (hhost : host.Proper identity True) (depth : Nat) :
    (∀ (p : ProxyId) (proxy : Proxy) (c : Configuration κ) (source : Source κ)
        (m : MethodSignature) (arguments : List Value) (w : World κ σ ν),
      w.Visited host identity → w.parts? p = some (proxy, c, source) →
      m.kind = .regular → ¬ identity m.key → proxy.Accepts m → c.PassesOn host m →
      (∀ (result : Result) (w' : World κ σ ν),
        (invoke host (answer host depth) p m arguments).run w = some (result, w') →
        ∃ passage, Course host identity depth p proxy source m arguments w (some passage) result
            w' ∧
          passage.chain.PassesOn host m ∧
          GoesThrough host (answer host depth) p proxy c.source source m arguments passage.chain
            passage.first result passage.last) ∧
      ∀ may : Request κ σ ν → Prop, host.Answered (answer host depth) may →
        ∃ result w', (invoke host (answer host depth) p m arguments).run w =
          some (result, w')) ∧
    (∀ (c : Configuration κ) (registry : AdapterRegistry κ) (m : MethodSignature),
      c.chainFactory = .standard registry → c.advisors = [] → c.PassesOn host m) ∧
    ∀ (p : ProxyId) (proxy : Proxy) (id id' : SourceId) (source source' : Source κ)
      (m : MethodSignature) (arguments arguments' : List Value) (chain chain' : Chain κ)
      (v v' w w' : World κ σ ν) (t : TargetId) (own : Result) (given : Except AopError Unit)
      (result result' : Result),
      Answered host (answer host depth) p proxy id source m arguments chain v (some t) .target
        arguments own given result w →
      Answered host (answer host depth) p proxy id' source' m arguments' chain' v' (some t) .target
        arguments' own given result' w' →
      result' = result := by
  refine ⟨?_, ?_, ?_⟩
  · intro p proxy c source m arguments w hw hparts hregular hkey haccepts hpasses
    refine ⟨fun result w' h => ?_, fun may hanswered => ?_⟩
    · have hc := (World.parts?_eq_some.mp hparts).2.1
      obtain ⟨taken, hcourse⟩ := invoke_course hhost hw hparts hregular hkey h
      obtain ⟨passage, rfl, hchain⟩ := hcourse.passes hhost haccepts hc hpasses
      refine ⟨passage, hcourse, hchain, ?_⟩
      have hforwards : passage.chain.IntroducesOrForwards host m :=
        fun entry hentry => .inr (hchain entry hentry).forwards
      exact .of_responds hchain
        (runSettled_responds (answer_sound host depth) hforwards (hcourse.runs hhost hc))
    · exact invoke_ends hhost hanswered hw hparts hregular hkey haccepts arguments
  · intro c registry m hfactory hnone
    exact .of_no_advisors hfactory hnone host m
  · intro p proxy id id' source source' m arguments arguments' chain chain' v v' w w' t own given
      result result'
    exact Answered.same

section Watched

/-- Admits the calls that have arguments. -/
def watchedMatcher : MethodMatcher where
  admits _ _ := true
  isRuntime := true
  admitsCall _ _ arguments := !arguments.isEmpty

/-- Advice of several kinds, some of it for calls with arguments only. -/
def watchedAdvisors : List (Advisor Unit) :=
  [.unconditional ⟨"log", .around ⟨none, .logging true⟩⟩,
    .pointcut (.ofMatcher watchedMatcher) ⟨"check", .before ()⟩,
    .unconditional ⟨"time", .around ⟨none, .performance 0⟩⟩,
    .unconditional ⟨"errors", .around ⟨none, .exceptionLogging⟩⟩]

/-- Makes a subclass proxy of one target with that advice. -/
def watchedSetup : Code Unit Unit Unit (Except AopError ProxyId) := do
  let target ← Code.ask (.newTarget fluentType ())
  let source ← Code.ask (.newSource (.singleton target fluentType))
  Code.ask (.makeProxy { source := some source, advisors := watchedAdvisors })

def watchedWorld : World Unit Unit Unit := worldAfter fluentHost 1 watchedSetup (.initial ())

theorem watchedAdvisors_passOn {c : Configuration Unit}
    (hfactory : c.chainFactory = .standard .standard) (hadvisors : c.advisors = watchedAdvisors)
    (m : MethodSignature) : c.PassesOn fluentHost m := by
  refine .adapted hfactory fun a ha => ?_
  rw [hadvisors] at ha
  simp only [watchedAdvisors, List.mem_cons, List.not_mem_nil, or_false] at ha
  rcases ha with rfl | rfl | rfl | rfl
  · exact ⟨_, rfl, fun i hi => by cases List.mem_singleton.mp hi; exact trivial⟩
  · exact ⟨_, rfl, fun i hi => by cases List.mem_singleton.mp hi; exact ⟨trivial, rfl⟩⟩
  · exact ⟨_, rfl, fun i hi => by cases List.mem_singleton.mp hi; exact trivial⟩
  · exact ⟨_, rfl, fun i hi => by cases List.mem_singleton.mp hi; exact trivial⟩

/-- Through all of that advice the client gets what it would get without. -/
theorem passing_advice_is_invisible_watched :
    ∃ proxy c source w', watchedWorld.parts? 0 = some (proxy, c, source) ∧
      c.advisors = watchedAdvisors ∧
      (invoke fluentHost (answer fluentHost 1) 0 fluentMethod []).run watchedWorld =
        some (.ok (some (.proxy 0)), w') ∧
      ∃ passage, Course fluentHost identityKeys 1 0 proxy source fluentMethod [] watchedWorld
          (some passage) (.ok (some (.proxy 0))) w' ∧
        passage.chain.PassesOn fluentHost fluentMethod ∧
        ∃ t own given, Answered fluentHost (answer fluentHost 1) 0 proxy c.source source
          fluentMethod [] passage.chain passage.first (some t) .target [] own given
          (.ok (some (.proxy 0))) passage.last := by
  have hvisited : watchedWorld.Visited fluentHost identityKeys := by
    refine worldAfter_visited fluentHost_proper ?_ (.initial ())
    exact ⟨trivial, fun _ => ⟨trivial, fun _ => ⟨trivial, fun _ => trivial⟩⟩⟩
  obtain ⟨proxy, c, source, d, hparts, hfactory, hadvisors, hdispatch⟩ :
      ∃ proxy c source d, watchedWorld.parts? 0 = some (proxy, c, source) ∧
        c.chainFactory = .standard .standard ∧ c.advisors = watchedAdvisors ∧
        proxy.dispatch = .subclass d := ⟨_, _, _, _, rfl, rfl, rfl, rfl⟩
  have haccepts : proxy.Accepts fluentMethod := by
    intro d' hcontracts
    rw [hdispatch] at hcontracts
    cases hcontracts
  have hkey : ¬ identityKeys fluentMethod.key := by
    simp [identityKeys, fluentMethod, fluentType, MethodSignature.key, MethodSignature.equals,
      MethodSignature.hashCode, MethodSignature.finalizer]
  have hasks : fluentHost.Asks fun _ => False :=
    { around := fun _ => ⟨trivial, fun _ => trivial⟩, before := fun _ => trivial
      afterReturning := fun _ _ => trivial, afterThrowing := fun _ _ => trivial
      after := fun _ => trivial, target := fun _ _ _ _ => trivial, make := fun _ => trivial
      acquire := fun _ => trivial, release := fun _ _ => trivial
      chain := fun _ _ _ _ _ => trivial, builder := fun _ => trivial }
  have hanswered : fluentHost.Answered (answer fluentHost 1) fun _ => False :=
    ⟨hasks, fun _ hnever => hnever.elim⟩
  obtain ⟨hcalls, _, _⟩ := passing_advice_is_invisible fluentHost identityKeys fluentHost_proper 1
  obtain ⟨hgoes, hends⟩ := hcalls 0 proxy c source fluentMethod [] watchedWorld hvisited hparts
    rfl hkey haccepts (watchedAdvisors_passOn hfactory hadvisors fluentMethod)
  obtain ⟨result, w', hrun⟩ := hends _ hanswered
  have hvalue : ((invoke fluentHost (answer fluentHost 1) 0 fluentMethod []).run
      watchedWorld).map (·.1.toOption) = some (some (some (.proxy 0))) := by decide +kernel
  rw [hrun] at hvalue
  obtain rfl : result = .ok (some (.proxy 0)) := by
    rcases result with e | value
    · cases hvalue
    · exact congrArg _ (Option.some.inj (Option.some.inj hvalue))
  obtain ⟨passage, hcourse, hchain, hgoes⟩ := hgoes _ w' hrun
  refine ⟨proxy, c, source, w', hparts, hadvisors, hrun, passage, hcourse, hchain, ?_⟩
  cases hgoes with
  | target answered => exact ⟨_, _, _, answered⟩
  | nothing answered =>
      -- without a target there would be no value
      obtain ⟨delivered, hdelivers, hresult⟩ := answered.delivers
      rw [afterRelease_ok] at hresult
      subst hresult
      cases hdelivers

end Watched

end Run

end Weaving
