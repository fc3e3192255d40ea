import Weaving.Proofs.FullCourses
import Weaving.Proofs.TwinRuns

/-
Calls on the twins.  The contract proxy settles the chain of a call and runs it.  The subclass proxy
settles the chain first to choose a callback, unless the method has one, and whatever the callback is,
it stands for a call that settles its chain and runs it.  So for a moment the second world knows one
chain more; it does not once the first has settled its own.
-/
namespace Weaving

variable {κ σ ν : Type} {t : Twins κ} {host : Host κ σ ν} {below : Handler κ σ ν}
  {ahead : List MethodSignature} {m : MethodSignature} {w v : World κ σ ν}

namespace Twins

theorem Recognise.unsurprising {c c' : Configuration κ} (hm : t.Recognise m)
    (hakin : t.Akin ahead c c') (hahead : ∀ other ∈ ahead, other = m ∨ other ∈ t.methods) :
    Akin.Unsurprising t ahead c m (some t.type) := by
  intro other hother hkey
  rcases hahead other hother with rfl | hdeclared
  · rfl
  · have hsame : other.key = m.key := congrArg ChainKey.method hkey.symm
    exact hakin.outcome_recognised hm hdeclared hsame

/-- The proxies of the twins stand in for their target at the same calls. -/
theorem Suits.standsInFor (hm : t.Suits m) (id : ConfigurationId) (left right : Dispatch) :
    (Proxy.mk id left t.contracts).standsInFor m =
      (Proxy.mk id right (t.type :: t.contracts)).standsInFor m := by
  unfold Proxy.standsInFor
  split
  · rename_i type hreturns
    simp only [Proxy.isInstanceOf, List.any_cons]
    rcases hassignable : t.type.isAssignableTo type with _ | _
    · rfl
    · have hany : t.contracts.any (·.isAssignableTo type) = true :=
        List.any_eq_true.mpr (hm.returned type hreturns hassignable)
      rw [hany]
      rfl
  · rfl

/-- Where the second run ends may be told up to log lines. -/
theorem Meet.alike {α β : Type} {A : α → β → Prop} {x : Option (α × World κ σ ν)}
    {y y' : Option (β × World κ σ ν)} (h : t.Meet A x y) (hy : Run.Alike y y') : t.Meet A x y' := by
  cases h with
  | none =>
      cases hy with
      | none => exact .none
  | some hends =>
      cases hy with
      | some halike =>
          exact .some ⟨halike.1 ▸ hends.1, hends.2.quiet (.refl _) (.of_alike halike.2)⟩

end Twins

namespace Run

open Twins (Parallel Meet)

section Chains

/-- Asked for the same chain, the twins end side by side, even if the second knew it already. -/
theorem chainFor_own_meet (hm : t.Recognise m) (hbeside : t.Beside ahead w v)
    (hahead : ∀ other ∈ ahead, other = m ∨ other ∈ t.methods) :
    t.Meet Eq ((chainFor host below t.configuration m (some t.type)).run w)
      ((chainFor host below t.configuration m (some t.type)).run v) := by
  obtain ⟨c, c', source, d, parts⟩ := hbeside.parts
  have hunsurprising := hm.unsurprising parts.akin hahead
  obtain ⟨w', hw, hquiet⟩ := chainFor_quiet host below parts.first parts.akin.standard m
    (some t.type)
  obtain ⟨v', hv, hquiet'⟩ := chainFor_quiet host below parts.second parts.akin.standard' m
    (some t.type)
  rw [hw, hv]
  refine .some ⟨(parts.akin.settled hunsurprising).symm, ?_⟩
  refine (hbeside.reconfigure fun c₁ c₁' hc₁ hc₁' _ => ?_).quiet hquiet hquiet'
  obtain rfl : c₁ = c := Option.some.inj (hc₁.symm.trans parts.first)
  obtain rfl : c₁' = c' := Option.some.inj (hc₁'.symm.trans parts.second)
  have hsource : (c₁.settling t.registry m (some t.type)).source = c₁.source := by
    rw [Configuration.settling_eq]
  refine ⟨parts.akin.settling hunsurprising fun other hother => ?_, hsource,
    Configuration.later_settling c₁' t.registry m (some t.type)⟩
  rcases hahead other hother with rfl | hdeclared
  · exact .inr rfl
  · exact .inl hdeclared

/-- Requests for chains go on side by side, those of the twins for methods that are recognised. -/
theorem chainFor_parallel (h : host.Unaware below t) (id : ConfigurationId) (m : MethodSignature)
    (target : Option TypeInfo)
    (hown : id = t.configuration → target = some t.type ∧ t.Recognise m) :
    t.Parallel Eq (chainFor host below id m target) (chainFor host below id m target) := by
  by_cases hid : id = t.configuration
  · obtain ⟨rfl, hm⟩ := hown hid
    subst hid
    exact fun w v hbeside => chainFor_own_meet hm hbeside fun _ hother => .inr hother
  · exact chainFor_other_parallel h hid m target

theorem chainsFor_parallel (h : host.Unaware below t) (id : ConfigurationId)
    (target : Option TypeInfo) (methods : List MethodSignature)
    (hown : id = t.configuration → target = some t.type ∧ ∀ m ∈ methods, t.Recognise m) :
    t.Parallel Eq (chainsFor host below id target methods)
      (chainsFor host below id target methods) := by
  induction methods with
  | nil => exact .pure rfl
  | cons m rest ih =>
      have hfirst : id = t.configuration → target = some t.type ∧ t.Recognise m :=
        fun hid => (hown hid).imp_right fun hall => hall m List.mem_cons_self
      have hrest : id = t.configuration → target = some t.type ∧ ∀ m ∈ rest, t.Recognise m :=
        fun hid => (hown hid).imp_right fun hall other hother =>
          hall other (List.mem_cons_of_mem m hother)
      apply (chainFor_parallel h id m target hfirst).next
      intro found
      rcases found with e | chain
      · exact .pure rfl
      · apply (ih hrest).next
        intro later
        rcases later with e | later
        · exact .pure rfl
        · exact .pure rfl

theorem precompute_parallel (h : host.Unaware below t) (id : ConfigurationId)
    (hown : id = t.configuration → ∀ m ∈ t.methods, t.Recognise m) :
    t.Parallel Eq (precompute host below id) (precompute host below id) := by
  refine .get_bind fun w v hbeside => ?_
  by_cases hid : id = t.configuration
  · subst hid
    obtain ⟨c, c', source, d, parts⟩ := hbeside.parts
    have hsource : (v.sources[c'.source]?).bind Source.type = some t.type := by
      rw [hbeside.agrees.sources, parts.akin.source, parts.sourced]
      exact parts.typed
    have hmethods : c'.methods = c.methods := by
      rw [parts.akin.same]
      rfl
    simp only [parts.first, parts.second, parts.akin.frozen, parts.sourced, Option.bind_some,
      parts.typed, hsource, hmethods, parts.akin.methods]
    split
    · exact chainsFor_parallel h _ _ _ fun _ => ⟨rfl, hown rfl⟩
    · exact .pure rfl
  · rw [hbeside.others id hid, hbeside.agrees.sources]
    split
    · exact .pure rfl
    · split
      · exact chainsFor_parallel h id _ _ fun hsame => absurd hsame hid
      · exact .pure rfl

end Chains

section Callbacks

variable {c c' : Configuration κ} {source : Source κ} {d : SubclassDispatcher κ}

/-- How a callback of the subclass proxy is chosen while the contract proxy stands still; or the chain
cannot be built, which the contract proxy has still to find out. -/
inductive Chooses (t : Twins κ) (host : Host κ σ ν) (below : Handler κ σ ν) (m : MethodSignature)
    (source : Source κ) (w v : World κ σ ν) : Prop where
  | chosen {callback : Callback κ} {v' : World κ σ ν}
      (ran : (callbackOf host below t.dispatcher t.configuration source m).run v =
        some (.ok callback, v'))
      (beside : t.Beside (m :: t.methods) w v')
  | failed {c : Configuration κ} {e : AopError} {v' : World κ σ ν}
      (ran : (callbackOf host below t.dispatcher t.configuration source m).run v =
        some (.error e, v'))
      (quiet : v.Quiet v') (found : w.configurations[t.configuration]? = some c)
      (unsettled : c.settled t.registry m (some t.type) = .error e)

/-- When the subclass proxy considers a method its chain is settled, as it is for the contract proxy. -/
theorem accept_twin (host : Host κ σ ν) (below : Handler κ σ ν) (hm : t.Suits m)
    (parts : t.Parts t.methods w v c c' source d) :
    ∃ v₁, (accept host below d t.configuration source m).run v =
        some ((c.settled t.registry m (some t.type)).map
          (callbackFor d c' source.isStatic m), v₁) ∧
      (v.mapConfiguration t.configuration fun _ =>
        c'.settling t.registry m (some t.type)).Quiet v₁ := by
  have htype : d.targetType = t.type :=
    Option.some.inj (parts.serves.made.1.symm.trans parts.typed)
  have hleaves : d.keeps m = false := by
    simp [SubclassDispatcher.keeps, MethodSignature.isOwn, hm.regular]
  have hsettled := parts.akin.settled
    (hm.recognised.unsurprising parts.akin fun _ hother => .inr hother)
  obtain ⟨v₁, hchain, hquiet⟩ := chainFor_quiet host below parts.second parts.akin.standard' m
    (some t.type)
  refine ⟨v₁, ?_, hquiet⟩
  rw [accept_leaves hleaves, get_bind_run]
  simp only [parts.second, htype]
  rw [run_bind_of_eq_some hchain, hsettled]
  cases c.settled t.registry m (some t.type) <;> rfl

/-- The parts that a new callback relies on are those for which it was chosen. -/
theorem accept_twin_backed (hbelow : below.Sound host) (hagrees : w.Agrees v)
    (parts : t.Parts t.methods w v c c' source d) {known : Configuration κ} {v₁ : World κ σ ν}
    {callback : Callback κ}
    (haccept : (accept host below d t.configuration source m).run v = some (.ok callback, v₁))
    (hquiet : (v.mapConfiguration t.configuration fun _ => known).Quiet v₁)
    {c₁ : Configuration κ} {source₁ : Source κ} {d₁ : SubclassDispatcher κ}
    (hc₁ : v₁.configurations[t.configuration]? = some c₁)
    (hsource₁ : v₁.sources[c₁.source]? = some source₁)
    (hd₁ : v₁.dispatchers[t.dispatcher]? = some d₁) (hmade : d₁.MadeFor c₁ source₁) :
    callback.Backed c₁ source₁ d₁.targetType m.key := by
  have hdispatchers : v₁.dispatchers = v.dispatchers := by
    rw [hquiet.same]
    rfl
  have hsources : v₁.sources = v.sources := by
    rw [hquiet.same]
    rfl
  have hchosen : v.Later v₁ := Sound.later
    (accept_sound hbelow (fun _ _ => trivial) d t.configuration source m) haccept
  obtain ⟨c₂, hc₂, hlater⟩ := hchosen.configurations t.configuration c' parts.second
  obtain rfl : c₂ = c₁ := Option.some.inj (hc₂.symm.trans hc₁)
  rw [hdispatchers, parts.dispatched] at hd₁
  rw [hsources, hlater.source, hagrees.sources, parts.akin.source, parts.sourced] at hsource₁
  cases hd₁
  cases hsource₁
  exact accept_backed hbelow haccept hc₁ hmade

theorem callbackOf_chooses (hbelow : below.Sound host) (hm : t.Suits m)
    (hbeside : t.Beside t.methods w v) (parts : t.Parts t.methods w v c c' source d) :
    Chooses t host below m source w v := by
  have hmore : ∀ other ∈ t.methods, other ∈ m :: t.methods := fun _ => List.mem_cons_of_mem m
  rcases hcallback : d.callback? m with _ | callback
  · obtain ⟨v₁, haccept, hquiet⟩ := accept_twin host below hm parts
    rcases hanswer : c.settled t.registry m (some t.type) with e | chain
    · rw [hanswer] at haccept
      have hrun : (callbackOf host below t.dispatcher t.configuration source m).run v =
          some (.error e, v₁) := by
        rw [callbackOf, get_bind_run]
        simp only [parts.dispatched, hcallback]
        rw [run_bind_of_eq_some haccept]
        rfl
      have hsettled := parts.akin.settled
        (hm.recognised.unsurprising parts.akin fun _ hother => .inr hother)
      rw [Configuration.settling_unsettled (hsettled.trans hanswer),
        World.mapConfiguration_self parts.second] at hquiet
      exact .failed hrun hquiet parts.first hanswer
    · rw [hanswer] at haccept
      have hd : v₁.dispatchers[t.dispatcher]? = some d := by
        rw [hquiet.same]
        exact parts.dispatched
      obtain ⟨line, hrun⟩ := callbackOf_first parts.dispatched hcallback haccept hd
      rw [hcallback, Option.getD_none] at hrun
      have hakin : t.Akin (m :: t.methods) c (c'.settling t.registry m (some t.type)) :=
        (parts.akin.more hmore).settling_second List.mem_cons_self
      have hahead := (hbeside.reconfigureSecond parts.first parts.second hakin
        (Configuration.later_settling c' t.registry m (some t.type))).quiet (.refl w) hquiet
      refine .chosen hrun ((hahead.quiet (.refl w) (.record rfl)).remember ?_
        (callbackFor_not_own d c' source.isStatic m chain))
      exact fun _ _ _ hc₁ hsource₁ hd₁ hmade =>
        accept_twin_backed hbelow hbeside.agrees parts haccept hquiet hc₁ hsource₁ hd₁ hmade
  · exact .chosen (callbackOf_remembered parts.dispatched hcallback) (hbeside.more hmore)

/-- The subclass proxy takes the full course of a call, whatever callback it goes by. -/
theorem routeBySubclass_twin (hbelow : below.Sound host) (hm : t.Suits m)
    (hbeside : t.Beside t.methods w v) (parts : t.Parts t.methods w v c c' source d)
    (arguments : List Value) :
    Alike ((fullCourse host below t.proxy
        ⟨t.configuration, .subclass t.dispatcher, t.type :: t.contracts⟩ c' source m
        arguments).run v)
      ((routeBySubclass host below t.dispatcher t.proxy m arguments).run v) := by
  have hsource : v.sources[c'.source]? = some source := by
    rw [hbeside.agrees.sources, parts.akin.source]
    exact parts.sourced
  refine routeBySubclass_fullCourse hbelow hbeside.proxied.second parts.second hsource rfl ?_
  intro callback v' hrun
  cases callbackOf_chooses hbelow hm hbeside parts with
  | failed ran _ _ _ => cases ran.symm.trans hrun
  | @chosen chosen u ran beside =>
      cases ran.symm.trans hrun
      obtain ⟨d₁, hd₁, hcallback⟩ := callbackOf_remembers hbelow parts.dispatched hrun
      obtain ⟨c₂, c₂', source₂, d₂, parts₂⟩ := beside.parts
      obtain rfl : d₂ = d₁ := Option.some.inj (parts₂.dispatched.symm.trans hd₁)
      obtain rfl : c₂ = c := Option.some.inj (parts₂.first.symm.trans parts.first)
      obtain rfl : source₂ = source := Option.some.inj (parts₂.sourced.symm.trans parts.sourced)
      have hlater : v.Later v' := Sound.later (callbackOf_sound hbelow (fun _ _ => trivial)
        t.dispatcher t.configuration source₂ m) hrun
      obtain ⟨c₃, hc₃, hlater⟩ := hlater.configurations t.configuration c' parts.second
      obtain rfl : c₃ = c₂' := Option.some.inj (hc₃.symm.trans parts₂.second)
      obtain ⟨hbacked, hother⟩ := parts₂.serves.backed m callback hcallback
      exact ⟨c₃, d₂.targetType, hc₃, hlater, parts₂.serves.made.1, hbacked, hother⟩

end Callbacks

section Courses

/-- A contract proxy accepts the methods that suit both twins, and takes the full course. -/
theorem routeByContracts_twin (hm : t.Suits m) {c c' : Configuration κ} {source : Source κ}
    {own : SubclassDispatcher κ} (parts : t.Parts ahead w v c c' source own)
    {d : ContractDispatcher}
    (hproxy : w.proxies[t.proxy]? = some ⟨t.configuration, .contracts d, t.contracts⟩)
    (arguments : List Value) :
    (routeByContracts host below d t.proxy m arguments).run w =
      (invokeAdvised host below t.proxy ⟨t.configuration, .contracts d, t.contracts⟩ c source m
        arguments none).run w := by
  refine routeByContracts_advised host below hproxy parts.first parts.sourced ?_ ?_ arguments
  · simp [MethodSignature.isOwn, hm.regular]
  · rintro ⟨_, hroot, hforeign⟩
    rcases hm.declared with hdeclared | hcontract
    · rw [hroot] at hdeclared
      cases hdeclared
    · have hany : t.contracts.any (·.isAssignableTo m.declaringType) = true :=
        List.any_eq_true.mpr hcontract
      rw [Proxy.isInstanceOf, hroot, hany] at hforeign
      cases hforeign

/-- The twins take the full course of a call side by side. -/
theorem invokeAdvised_twins (h : host.Unaware below t) (hm : t.Suits m)
    (hbeside : t.Beside (m :: t.methods) w v) {c c' : Configuration κ} {source : Source κ}
    (hexpose : c'.flags.exposeProxy = c.flags.exposeProxy) (hsource : c'.source = c.source)
    (htype : source.type = some t.type) (left right : Dispatch) (arguments : List Value) :
    t.Meet Eq
      ((invokeAdvised host below t.proxy ⟨t.configuration, left, t.contracts⟩ c source m arguments
        none).run w)
      ((invokeAdvised host below t.proxy ⟨t.configuration, right, t.type :: t.contracts⟩ c' source m
        arguments none).run v) := by
  rw [invokeAdvised, invokeAdvised, hexpose, hsource]
  refine Meet.whileExposed hbeside fun w v hbeside => ?_
  have hchain : t.Meet Eq ((chainFor host below t.configuration m source.type).run w)
      ((chainFor host below t.configuration m source.type).run v) := by
    rw [htype]
    exact chainFor_own_meet hm.recognised hbeside fun _ => List.mem_cons.mp
  refine hchain.bind fun found found' hsame => ?_
  subst hsame
  rcases found with e | chain
  · exact .pure rfl
  · exact runSettled_parallel h (hm.standsInFor t.configuration left right) c.source source
      arguments chain

/-- A call that settles no chain leaves the contract proxy's world as it was. -/
theorem invokeAdvised_unsettled (host : Host κ σ ν) (below : Handler κ σ ν)
    {c : Configuration κ} {source : Source κ} {e : AopError}
    (hc : w.configurations[t.configuration]? = some c)
    (hstandard : c.chainFactory = .standard t.registry) (htype : source.type = some t.type)
    (hunsettled : c.settled t.registry m (some t.type) = .error e) (left : Dispatch)
    (arguments : List Value) :
    ∃ w', (invokeAdvised host below t.proxy ⟨t.configuration, left, t.contracts⟩ c source m
        arguments none).run w = some (.error e, w') ∧ w.Quiet w' := by
  have hexposed : (w.exposing c.flags.exposeProxy t.proxy).configurations[t.configuration]? =
      some c := by
    rw [World.configurations_exposing]
    exact hc
  obtain ⟨u, hchain, hquiet⟩ := chainFor_quiet host below hexposed hstandard m (some t.type)
  rw [Configuration.settling_unsettled hunsettled, World.mapConfiguration_self hexposed] at hquiet
  rw [hunsettled] at hchain
  refine ⟨u.restoring c.flags.exposeProxy w.current, ?_, ?_⟩
  · rw [invokeAdvised, whileExposed_run, htype]
    simp only
    rw [run_bind_of_eq_some hchain]
    rfl
  · have hrestored := hquiet.map (·.restoring c.flags.exposeProxy w.current) fun _ _ => by
      cases c.flags.exposeProxy <;> rfl
    have hback : (w.exposing c.flags.exposeProxy t.proxy).restoring c.flags.exposeProxy w.current =
        w := by
      cases c.flags.exposeProxy <;> rfl
    rw [hback] at hrestored
    exact hrestored

/-- Calls on the twins go on side by side. -/
theorem invoke_twins (hbelow : below.Sound host) (h : host.Unaware below t) (hm : t.Suits m)
    (arguments : List Value) :
    t.Parallel Eq (invoke host below t.proxy m arguments)
      (invoke host below t.proxy m arguments) := by
  intro w v hbeside
  obtain ⟨d, hfirst⟩ := hbeside.proxied.first
  obtain ⟨line, hleft⟩ := invoke_run host below hfirst m arguments
  obtain ⟨line', hright⟩ := invoke_run host below hbeside.proxied.second m arguments
  have hlogged : t.Beside t.methods (w.record (.logged line)) (v.record (.logged line')) :=
    hbeside.quiet (.record rfl) (.record rfl)
  obtain ⟨c, c', source, own, parts⟩ := hlogged.parts
  rw [hleft, hright]
  refine Meet.alike ?_ (routeBySubclass_twin hbelow hm hlogged parts arguments)
  simp only
  rw [routeByContracts_twin hm parts hfirst arguments, fullCourse]
  simp only
  cases callbackOf_chooses hbelow hm hlogged parts with
  | chosen ran beside =>
      rw [run_bind_of_eq_some ran]
      exact invokeAdvised_twins h hm beside parts.akin.exposeProxy parts.akin.source parts.typed _ _
        arguments
  | failed ran quiet found unsettled =>
      cases found.symm.trans parts.first
      obtain ⟨w', hrun, hquiet⟩ := invokeAdvised_unsettled host below
        parts.first parts.akin.standard parts.typed unsettled (.contracts d) arguments
      rw [run_bind_of_eq_some ran, hrun]
      exact .some ⟨rfl, hlogged.quiet hquiet quiet⟩

end Courses

end Run

end Weaving
