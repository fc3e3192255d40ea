import Weaving.Proofs.ConfigurationChanges
import Weaving.Proofs.Prefiltering
import Weaving.Proofs.SettledChains
import Weaving.Proofs.Transparency

/-
What a proxy is like when it has just been made.  Its configuration is put together from the factory
and the target's type: the advisors that are kept, the contracts that are offered, and nothing of what
happened before.  Choosing how calls are routed may run user code, that of building chains, but only
for a configuration that is frozen by then; so whatever that code does, the advisors and the contracts
of a new proxy are those of its factory.
-/
namespace Weaving

variable {κ σ ν : Type}

namespace TypeInfo

theorem foldl_pushNew_nil (types : List TypeInfo) : types.foldl pushNew [] = types.eraseDups := by
  rw [foldl_pushNew, List.nil_append]
  congr 1
  exact List.filter_eq_self.mpr fun _ _ => rfl

end TypeInfo

namespace ProxyFactory

/-- The flags and the advisors of a proxy for targets of a type, without the advisors that cannot apply
if the factory says so. -/
def screened (f : ProxyFactory κ) (type : TypeInfo) : Flags × List (Advisor κ) :=
  if f.preFilter then
    ({ f.flags with preFiltered := true },
      f.advisors.filter (·.relevant type f.methods (f.advisors.any (·.introducesTo type))))
  else (f.flags, f.advisors)

/-- The flags and the advisors of a proxy; no advisor is left out where no target type is known. -/
def kept (f : ProxyFactory κ) : Option TypeInfo → Flags × List (Advisor κ)
  | some type => f.screened type
  | none => (f.flags, f.advisors)

/-- How the proxies of a factory build their chains. -/
def building (f : ProxyFactory κ) : ChainFactory κ :=
  match f.chainFactory with
  | some code => .custom code
  | none => .standard (f.registry.getD .standard)

/-- The configuration that a factory puts together for the targets of a source. -/
def assembled (f : ProxyFactory κ) (id : SourceId) (type : Option TypeInfo) : Configuration κ :=
  f.configure (f.kept type).1 id type (f.kept type).2 f.building

/-- That configuration when its proxy has been made. -/
def completed (f : ProxyFactory κ) (id : SourceId) (type : Option TypeInfo) : Configuration κ :=
  { f.assembled id type with frozen := f.flags.frozen }

/-- The contracts that a factory was given, and those that the advisors of its proxies introduce. -/
def offered (f : ProxyFactory κ) (type : Option TypeInfo) : List TypeInfo :=
  f.interfaces ++ (f.kept type).2.flatMap (·.interfaces)

theorem configure_eq (f : ProxyFactory κ) (flags : Flags) (id : SourceId) (type : Option TypeInfo)
    (advisors : List (Advisor κ)) (chainFactory : ChainFactory κ) :
    f.configure flags id type advisors chainFactory =
      { flags := flags
        source := id
        methods := f.methods
        advisors := advisors
        interfaces := (f.configure flags id type advisors chainFactory).interfaces
        frozen := false
        chainFactory := chainFactory
        cache := .empty } := by
  unfold configure
  split
  · dsimp only
    split
    · rfl
    · rfl
  · rfl

theorem assembled_eq (f : ProxyFactory κ) (id : SourceId) (type : Option TypeInfo) :
    f.assembled id type =
      { flags := (f.kept type).1
        source := id
        methods := f.methods
        advisors := (f.kept type).2
        interfaces := (f.assembled id type).interfaces
        frozen := false
        chainFactory := f.building
        cache := .empty } :=
  f.configure_eq _ id type _ f.building

theorem completed_eq (f : ProxyFactory κ) (id : SourceId) (type : Option TypeInfo) :
    f.completed id type =
      { flags := (f.kept type).1
        source := id
        methods := f.methods
        advisors := (f.kept type).2
        interfaces := (f.assembled id type).interfaces
        frozen := f.flags.frozen
        chainFactory := f.building
        cache := .empty } := by
  rw [completed, assembled_eq]

theorem mem_screened {f : ProxyFactory κ} {type : TypeInfo} {a : Advisor κ}
    (h : a ∈ (f.screened type).2) : a ∈ f.advisors := by
  rw [screened] at h
  split at h
  · exact List.mem_of_mem_filter h
  · exact h

theorem screened_flags (f : ProxyFactory κ) (type : TypeInfo) :
    (f.screened type).1 = { f.flags with preFiltered := (f.screened type).1.preFiltered } := by
  rw [screened]
  split
  · rfl
  · rfl

/-- Whether to freeze the configuration does not depend on the advisors that are kept. -/
theorem kept_frozen (f : ProxyFactory κ) (type : Option TypeInfo) :
    (f.kept type).1.frozen = f.flags.frozen := by
  cases type with
  | none => rfl
  | some type => rw [kept, screened_flags]

theorem isEmpty_eraseDups (types : List TypeInfo) : types.eraseDups.isEmpty = types.isEmpty := by
  cases types with
  | nil => rfl
  | cons t rest =>
      rw [List.eraseDups_cons]
      rfl

/-- A new configuration exposes what is offered, or else a contract that is the target's own type. -/
theorem interfaces_assembled (f : ProxyFactory κ) (id : SourceId) (type : Option TypeInfo) :
    (f.assembled id type).interfaces =
      if (f.offered type).isEmpty then (type.filter (·.contract)).toList
      else (f.offered type).eraseDups := by
  have hadvised : ((f.kept type).2.flatMap (·.interfaces)).foldl TypeInfo.pushNew
      (f.interfaces.foldl TypeInfo.pushNew []) = (f.offered type).eraseDups := by
    rw [← List.foldl_append, ← offered, TypeInfo.foldl_pushNew_nil]
  have hbare : (f.offered type).isEmpty = true → (f.offered type).eraseDups = [] := by
    intro hempty
    rw [List.isEmpty_iff.mp hempty]
    rfl
  cases type with
  | none =>
      change ((f.kept none).2.flatMap (·.interfaces)).foldl TypeInfo.pushNew
        (f.interfaces.foldl TypeInfo.pushNew []) = _
      rw [hadvised]
      split
      · rename_i hempty
        exact hbare hempty
      · rfl
  | some type =>
      unfold assembled configure
      dsimp only [Configuration.exposeAll, Configuration.initial]
      rw [hadvised, isEmpty_eraseDups]
      cases hempty : (f.offered (some type)).isEmpty with
      | false => simp
      | true =>
          cases hcontract : type.contract with
          | false => simp [Option.filter, hcontract, hbare hempty]
          | true => simp [Option.filter, hcontract, hbare hempty, TypeInfo.pushNew, TypeInfo.isIn]

/-- A proxy for targets of a type, and its configuration, as a factory makes them. -/
structure Made (f : ProxyFactory κ) (type : Option TypeInfo) (proxy : Proxy)
    (c : Configuration κ) : Prop where
  flags : c.flags = (f.kept type).1
  chainFactory : c.chainFactory = f.building
  advisors : c.advisors = (f.kept type).2
  interfaces : c.interfaces =
    if (f.offered type).isEmpty then (type.filter (·.contract)).toList
    else (f.offered type).eraseDups
  frozen : c.frozen = f.flags.frozen
  routing :
    (c.wantsSubclass type = false ∧ proxy.dispatch = .contracts (.of c.interfaces) ∧
        proxy.proxiedTypes = c.interfaces) ∨
      ∃ own dispatcher, c.wantsSubclass type = true ∧ type = some own ∧
        proxy.dispatch = .subclass dispatcher ∧ proxy.proxiedTypes = own :: c.interfaces

end ProxyFactory

/-- A world has got one more configuration, and besides lines were logged and questions put. -/
structure World.Gains (w u : World κ σ ν) (c : Configuration κ) : Prop where
  size : u.configurations.size = w.configurations.size + 1
  found : u.configurations[w.configurations.size]? = some c
  others : ∀ id : ConfigurationId, id ≠ w.configurations.size →
    u.configurations[id]? = w.configurations[id]?
  quiet : ({ w with configurations := u.configurations } : World κ σ ν).Quiet u

namespace World.Gains

variable {w u u' : World κ σ ν} {c : Configuration κ}

theorem push (h : w.Quiet u) (c : Configuration κ) :
    w.Gains { u with configurations := u.configurations.push c } c := by
  have hsame : u.configurations = w.configurations := by
    rw [h.same]
    rfl
  refine ⟨?_, ?_, fun id hid => ?_, ?_, h.doings⟩
  · rw [Array.size_push, hsame]
  · change (u.configurations.push c)[w.configurations.size]? = _
    rw [hsame]
    exact Array.getElem?_push_size
  · change (u.configurations.push c)[id]? = _
    rw [hsame, Array.getElem?_push, if_neg hid]
  · rw [h.same]
    rfl

theorem more (h : w.Gains u c) (hquiet : u.Quiet u') : w.Gains u' c := by
  have hsame : u'.configurations = u.configurations := by
    rw [hquiet.same]
    rfl
  refine ⟨hsame ▸ h.size, hsame ▸ h.found, fun id hid => hsame ▸ h.others id hid, ?_⟩
  rw [hsame]
  exact h.quiet.trans hquiet

/-- The configuration that was gained may change. -/
theorem change (h : w.Gains u c) (c' : Configuration κ) :
    w.Gains (u.mapConfiguration w.configurations.size fun _ => c') c' := by
  refine ⟨?_, ?_, fun id hid => ?_, ?_, h.quiet.doings⟩
  · change (u.configurations.modify _ _).size = _
    rw [Array.size_modify]
    exact h.size
  · change (u.configurations.modify _ _)[w.configurations.size]? = _
    rw [Array.getElem?_modify, if_pos rfl, h.found]
    rfl
  · change (u.configurations.modify _ _)[id]? = _
    rw [Array.getElem?_modify, if_neg (Ne.symm hid)]
    exact h.others id hid
  · have hsame := h.quiet.same
    rw [World.mapConfiguration]
    rw [hsame]
    rfl

theorem sources (h : w.Gains u c) : u.sources = w.sources := by
  rw [h.quiet.same]
  rfl

theorem dispatchers (h : w.Gains u c) : u.dispatchers = w.dispatchers := by
  rw [h.quiet.same]
  rfl

theorem proxies (h : w.Gains u c) : u.proxies = w.proxies := by
  rw [h.quiet.same]
  rfl

end World.Gains

namespace Run

variable {host : Host κ σ ν} {below : Handler κ σ ν} {f : ProxyFactory κ} {w u v : World κ σ ν}

section Preparing

theorem preFilter_quiet (f : ProxyFactory κ) (type : Option TypeInfo) (w : World κ σ ν) :
    ∃ u, (preFilter f type).run w = some (f.kept type, u) ∧ w.Quiet u := by
  rcases hfilter : f.preFilter with _ | _
  · refine ⟨w, ?_, .refl w⟩
    cases type <;> simp [preFilter, ProxyFactory.kept, ProxyFactory.screened, hfilter]
  · cases type with
    | none =>
        have hwarned := World.Quiet.record (w := w) (e := .logged ⟨.warn,
          "Cannot pre-filter advisors without a target type", []⟩) rfl
        refine ⟨_, ?_, hwarned⟩
        simp only [preFilter, hfilter, if_true]
        rfl
    | some type =>
        obtain ⟨questions, _, hasked⟩ := asking_of_yields (κ := κ) (σ := σ) (ν := ν)
          (Advisor.findApplicable_yields f.advisors type f.methods) w
        have hlogged := World.Quiet.record (w := w.asking questions) (e := .logged ⟨.debug,
          "Pre-filtered advisors for " ++ type.name ++ ": "
            ++ toString (f.screened type).2.length ++ " of " ++ toString f.advisors.length
            ++ " apply", []⟩) rfl
        refine ⟨_, ?_, (World.Quiet.asking w questions).trans hlogged⟩
        simp only [preFilter, ProxyFactory.kept, ProxyFactory.screened, hfilter, if_true]
        rw [run_bind_of_eq_some hasked]
        rfl

theorem chainFactoryOf_quiet (f : ProxyFactory κ) (w : World κ σ ν) :
    ∃ u, (chainFactoryOf f : Run κ σ ν (ChainFactory κ)).run w = some (f.building, u) ∧
      w.Quiet u := by
  rw [chainFactoryOf, ProxyFactory.building]
  rcases f.chainFactory with _ | code
  · rcases f.registry with _ | registry
    · obtain ⟨u, hlogged, halike⟩ := AtCall.logAll_run (κ := κ) (σ := σ) (ν := ν)
        (AdapterRegistry.standard : AdapterRegistry κ).registrationLines w
      refine ⟨u, ?_, .of_alike halike⟩
      simp only
      rw [run_bind_of_eq_some hlogged]
      rfl
    · exact ⟨w, rfl, .refl w⟩
  · exact ⟨w, rfl, .refl w⟩

theorem freeze_gains {c : Configuration κ} (h : w.Gains u c) (hmutable : c.frozen = false) :
    ∃ v, (freeze w.configurations.size : Run κ σ ν Unit).run u = some ((), v) ∧
      w.Gains v c.freeze := by
  refine ⟨_, ?_, (h.change c.freeze).more (.record (e := .logged c.freezingLine) rfl)⟩
  rw [freeze, get_bind_run,
    ← World.mapConfiguration_congr h.found (f := Configuration.freeze) (g := fun _ => c.freeze) rfl]
  simp only [h.found, hmutable]
  rfl

/-- Preparing a proxy gains its configuration. -/
theorem prepare_gains (f : ProxyFactory κ) (id : SourceId) (type : Option TypeInfo)
    (w : World κ σ ν) :
    ∃ u, (prepare f id type).run w =
        some ((w.configurations.size, f.assembled id type), u) ∧
      w.Gains u (f.completed id type) := by
  obtain ⟨u₁, hkept, hquiet₁⟩ := preFilter_quiet f type w
  obtain ⟨u₂, hchains, hquiet₂⟩ := chainFactoryOf_quiet f u₁
  have hquiet := hquiet₁.trans hquiet₂
  have hsize : u₂.configurations.size = w.configurations.size := by
    rw [hquiet.same]
    rfl
  obtain ⟨u₃, hlogged, halike⟩ := AtCall.logAll_run (ProxyFactory.advisorLines (f.kept type).2)
    { u₂ with configurations := u₂.configurations.push (f.assembled id type) }
  have hgains : w.Gains u₃ (f.assembled id type) :=
    (World.Gains.push hquiet (f.assembled id type)).more (.of_alike halike)
  have hmutable : (f.assembled id type).frozen = false := by
    rw [ProxyFactory.assembled_eq]
  have hmade : (newConfiguration (f.assembled id type) : Run κ σ ν ConfigurationId).run u₂ =
      some (w.configurations.size,
        { u₂ with configurations := u₂.configurations.push (f.assembled id type) }) := by
    rw [← hsize]
    rfl
  rw [prepare, run_bind_of_eq_some hkept]
  simp only
  rw [run_bind_of_eq_some hchains, ← ProxyFactory.assembled, run_bind_of_eq_some hmade,
    run_bind_of_eq_some hlogged, f.kept_frozen type]
  rcases hfrozen : f.flags.frozen with _ | _
  · refine ⟨u₃, rfl, ?_⟩
    rw [ProxyFactory.completed, hfrozen, ← hmutable]
    exact hgains
  · have hfreeze : (f.assembled id type).freeze = f.completed id type := by
      rw [ProxyFactory.completed, hfrozen, ProxyFactory.assembled_eq]
      rfl
    obtain ⟨v, hrun, hfrozen⟩ := freeze_gains hgains hmutable
    refine ⟨v, ?_, hfreeze ▸ hfrozen⟩
    simp only [if_true]
    rw [run_bind_of_eq_some hrun]
    rfl

end Preparing

section Choosing

variable {id : ConfigurationId} {c c₀ : Configuration κ} {type : Option TypeInfo}
  {dispatch : Dispatch} {types : List TypeInfo}

/-- How the routing of a proxy was chosen. -/
theorem chooseDispatch_eq_some
    (h : (chooseDispatch host below id c type).run w = some (.ok (dispatch, types), v)) :
    (c.wantsSubclass type = false ∧ dispatch = .contracts (.of c.interfaces) ∧
        types = c.interfaces ∧ v = w) ∨
      ∃ own d, c.wantsSubclass type = true ∧ type = some own ∧
        (newDispatcher host below id own).run w = some (.ok d, v) ∧ dispatch = .subclass d ∧
        types = own :: c.interfaces := by
  simp only [chooseDispatch] at h
  split at h
  · rename_i hwants
    rcases type with _ | own
    · cases h
    · obtain ⟨made, u, hmade, h⟩ := run_bind_eq_some.mp h
      rcases made with e | d
      · cases h
      · cases h
        exact .inr ⟨own, d, hwants, rfl, hmade, rfl, rfl⟩
  · rename_i hwants
    cases h
    exact .inl ⟨Bool.eq_false_iff.mpr hwants, rfl, rfl, rfl⟩

/-- As long as a configuration may change, no chain is built for a new dispatcher. -/
theorem newDispatcher_mutable (host : Host κ σ ν) (below : Handler κ σ ν)
    (hc : w.configurations[id]? = some c₀) (hmutable : c₀.frozen = false) (own : TypeInfo) :
    (newDispatcher host below id own).run w =
      some (.ok w.dispatchers.size,
        { w with dispatchers := w.dispatchers.push ⟨own, [], []⟩ }) := by
  rw [newDispatcher, get_bind_run]
  simp only [hc, hmutable]
  rfl

/-- Choosing the routing leaves the advisors and the contracts as they are, whatever user code runs. -/
theorem chooseDispatch_keeps (hbelow : below.Sound host) (hc : w.configurations[id]? = some c₀)
    (h : (chooseDispatch host below id c type).run w = some (.ok (dispatch, types), v)) :
    ∃ c', v.configurations[id]? = some c' ∧ c₀.Later c' ∧ c'.advisors = c₀.advisors ∧
      c'.interfaces = c₀.interfaces ∧ c'.frozen = c₀.frozen := by
  rcases hfrozen : c₀.frozen with _ | _
  · rcases chooseDispatch_eq_some h with ⟨_, _, _, rfl⟩ | ⟨own, d, _, _, hmade, _, _⟩
    · exact ⟨c₀, hc, .refl c₀, rfl, rfl, hfrozen⟩
    · rw [newDispatcher_mutable host below hc hfrozen own] at hmade
      cases hmade
      exact ⟨c₀, hc, .refl c₀, rfl, rfl, hfrozen⟩
  · have hlater : w.Later v :=
      Sound.later (chooseDispatch_sound hbelow (fun _ _ => trivial) id c type) h
    obtain ⟨c', hc', hsame⟩ := hlater.configurations id c₀ hc
    exact ⟨c', hc', hsame, hsame.advisors hfrozen, hsame.interfaces hfrozen,
      hsame.frozen hfrozen⟩

end Choosing

section Making

variable {id : SourceId} {source : Source κ} {p : ProxyId}

theorem makeProxyOver_places (hsource : w.sources[id]? = some source)
    (h : (makeProxyOver host below f id).run w = some (.ok p, v)) :
    (prepare f id source.type >>= fun made => place host below made.1 made.2 source).run w =
      some (.ok p, v) := by
  rw [makeProxyOver, get_bind_run] at h
  simp only [hsource, makeProxyFor_eq] at h
  split at h
  · cases h
  · exact h

theorem place_dispatches {configuration : ConfigurationId} {c : Configuration κ}
    (h : (place host below configuration c source).run w = some (.ok p, v)) :
    ∃ dispatch types u line,
      (chooseDispatch host below configuration c source.type).run w =
        some (.ok (dispatch, types), u) ∧
      p = u.proxies.size ∧
      v = ({ u with proxies := u.proxies.push ⟨configuration, dispatch, types⟩ } :
        World κ σ ν).record (.logged line) := by
  obtain ⟨chosen, u, hchosen, h⟩ := run_bind_eq_some.mp h
  rcases chosen with e | ⟨dispatch, types⟩
  · cases h
  · cases h
    exact ⟨dispatch, types, u, _, hchosen, rfl, rfl⟩

/-- A proxy over a source is as its factory makes it. -/
theorem makeProxyOver_made (hbelow : below.Sound host) (hsource : w.sources[id]? = some source)
    (h : (makeProxyOver host below f id).run w = some (.ok p, v)) :
    ∃ proxy c change, v.parts? p = some (proxy, c, source.mapPool change) ∧
      f.Made source.type proxy c := by
  obtain ⟨u, hprepare, hgains⟩ := prepare_gains f id source.type w
  have hplaced := makeProxyOver_places hsource h
  rw [run_bind_of_eq_some hprepare] at hplaced
  obtain ⟨dispatch, types, x, line, hchosen, rfl, rfl⟩ := place_dispatches hplaced
  obtain ⟨c, hc, hlater, hadvisors, hinterfaces, hfrozen⟩ :=
    chooseDispatch_keeps hbelow hgains.found hchosen
  have hchoosing : u.Later x :=
    Sound.later (chooseDispatch_sound hbelow (fun _ _ => trivial) _ _ source.type) hchosen
  obtain ⟨change, hchange⟩ := hchoosing.sources id source (hgains.sources ▸ hsource)
  have hcompleted := f.completed_eq id source.type
  have hown : c.source = id := by rw [hlater.source, hcompleted]
  have hflags : c.flags = (f.assembled id source.type).flags := hlater.flags
  have hexposed : c.interfaces = (f.assembled id source.type).interfaces := hinterfaces
  refine ⟨⟨w.configurations.size, dispatch, types⟩, c, change,
    World.parts?_eq_some.mpr ⟨Array.getElem?_push_size, hc, hown ▸ hchange⟩, ?_⟩
  refine ⟨?_, ?_, ?_, hexposed.trans (f.interfaces_assembled id source.type), ?_, ?_⟩
  · rw [hlater.flags, hcompleted]
  · rw [hlater.chainFactory, hcompleted]
  · rw [hadvisors, hcompleted]
  · rw [hfrozen, hcompleted]
  · have hwants : (f.assembled id source.type).wantsSubclass source.type =
        c.wantsSubclass source.type := by
      rw [Configuration.wantsSubclass, Configuration.wantsSubclass, hflags, hexposed]
    rw [← hwants, hexposed]
    rcases chooseDispatch_eq_some hchosen with
      ⟨hcontracts, rfl, rfl, _⟩ | ⟨own, d, hsubclass, htype, _, rfl, rfl⟩
    · exact .inl ⟨hcontracts, rfl, rfl⟩
    · exact .inr ⟨own, d, hsubclass, htype, rfl, rfl⟩

/-- Whatever proxy comes out of a factory is as the factory makes it. -/
theorem makeProxy_made (hbelow : below.Sound host)
    (h : (makeProxy host below f).run w = some (.ok p, v)) :
    ∃ proxy c source, v.parts? p = some (proxy, c, source) ∧ f.Made source.type proxy c := by
  rcases hf : f.source with _ | id
  · rw [makeProxy_of_none hf] at h
    obtain ⟨id, u, hmade, h⟩ := run_bind_eq_some.mp h
    cases hmade
    obtain ⟨proxy, c, change, hparts, hfits⟩ :=
      makeProxyOver_made hbelow Array.getElem?_push_size h
    exact ⟨proxy, c, _, hparts, by rwa [Source.type_mapPool]⟩
  · rw [makeProxy_of_source hf] at h
    rcases hsource : w.sources[id]? with _ | source
    · rw [makeProxyOver, get_bind_run] at h
      simp only [hsource] at h
      cases h
    · obtain ⟨proxy, c, change, hparts, hfits⟩ := makeProxyOver_made hbelow hsource h
      exact ⟨proxy, c, _, hparts, by rwa [Source.type_mapPool]⟩

end Making

end Run

end Weaving
