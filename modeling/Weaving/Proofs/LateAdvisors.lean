import Weaving.Proofs.IntroducedContracts

/-
Advisors that come after the filtering.  A factory that filters its advisors says so in the flags of
its configuration, and the flags stay.  While the configuration may change, chains are built from the
advisors it has got by then, and on the strength of that flag no filter of any of them is asked: the
advisors that were put in later contribute as if they had been filtered too.
-/
namespace Weaving

variable {κ σ ν : Type}

namespace Configuration

/-- A chain is made by all advisors that contribute when their type filters are taken for granted. -/
def Unfiltered (c : Configuration κ) (registry : AdapterRegistry κ) (m : MethodSignature)
    (type : TypeInfo) (outcome : Except AopError (Chain κ)) : Prop :=
  ∃ introductions : Bool,
    (introductions = true ↔ ∃ filter interfaces advice,
      Advisor.introduction filter interfaces advice ∈ c.advisors ∧ filter type = true) ∧
    Chain.Assembled registry (c.advisors.filter (·.contributes true introductions m type)) outcome

variable {host : Host κ σ ν} {identity : MethodKey → Prop} {depth : Nat} {c : Configuration κ}
  {registry : AdapterRegistry κ} {m : MethodSignature} {type : TypeInfo} {chain : Chain κ}
  {u v : World κ σ ν}

theorem outcome_unfiltered (hflag : c.flags.preFiltered = true) (registry : AdapterRegistry κ)
    (m : MethodSignature) (type : TypeInfo) :
    c.Unfiltered registry m type (c.outcome registry m (some type)) := by
  refine ⟨_, Advisor.introduces_iff, ?_⟩
  rw [outcome, hflag]
  exact Chain.assemble_assembled registry _

theorem Prescribes.unfiltered (h : c.Prescribes host identity depth m (some type) u chain v)
    (hfactory : c.chainFactory = .standard registry) (hflag : c.flags.preFiltered = true)
    (hmutable : c.frozen = false) : c.Unfiltered registry m type (.ok chain) := by
  obtain ⟨x, hbuild, _⟩ :=
    Run.buildChain_quiet host (Run.answer host depth) hfactory m (some type) u
  rw [h.current hmutable] at hbuild
  have houtcome : Except.ok chain = c.outcome registry m (some type) :=
    (Prod.mk.inj (Option.some.inj hbuild)).1
  rw [houtcome]
  exact outcome_unfiltered hflag registry m type

end Configuration

theorem ProxyFactory.kept_preFiltered {f : ProxyFactory κ} (h : f.preFilter = true)
    (type : TypeInfo) : (f.kept (some type)).1.preFiltered = true := by
  rw [kept, screened, if_pos h]

namespace Run

/-- A factory filters the advisors that it knows, for the type of its targets.  After that advisors may
be put in and taken out, and as long as this goes on every chain is made by all advisors of that time,
early or late, whose matchers admit the method: none of their type filters has a say.  So the chains
come out that are asked for, and so do those that calls run. -/
theorem late_advisors_go_unfiltered (host : Host κ σ ν) (depth : Nat) (f : ProxyFactory κ)
    (w v : World κ σ ν) (p : ProxyId) (hfilter : f.preFilter = true)
    (hstandard : f.chainFactory = none)
    (hmade : (makeProxy host (answer host depth) f).run w = some (.ok p, v)) :
    ∃ proxy c source, v.parts? p = some (proxy, c, source) ∧
      (∀ w', v.Leads host (fun _ => True) w' →
        ∃ deeds, v.ChangedBy host proxy.configuration deeds w') ∧
      ∀ type, source.type = some type →
        ∀ deeds w', v.ChangedBy host proxy.configuration deeds w' →
          ∃ c' change, w'.parts? p = some (proxy, c', source.mapPool change) ∧
            c'.advisors = deeds.foldl
              (fun advisors deed => deed.change.advisorsAfter advisors) (f.screened type).2 ∧
            (c'.frozen = false → ∀ (below : Handler κ σ ν) (m : MethodSignature),
              ∃ outcome x, (chainFor host below proxy.configuration m (some type)).run w' =
                  some (outcome, x) ∧
                c'.Unfiltered (f.registry.getD .standard) m type outcome) ∧
            ∀ identity : MethodKey → Prop, host.Proper identity True →
              w'.Visited host identity →
              ∀ (depth' : Nat) (m : MethodSignature) (arguments : List Value) (result : Result)
                (w'' : World κ σ ν), m.kind = .regular → ¬ identity m.key →
                (invoke host (answer host depth') p m arguments).run w' = some (result, w'') →
                ∃ taken, Course host identity depth' p proxy (source.mapPool change) m arguments w'
                    taken result w'' ∧
                  ∀ passage, taken = some passage → passage.configuration.frozen = false →
                    passage.configuration.Unfiltered (f.registry.getD .standard) m type
                      (.ok passage.chain) := by
  obtain ⟨proxy, c, source, hparts, hfresh⟩ := makeProxy_made (answer_sound host depth) hmade
  refine ⟨proxy, c, source, hparts,
    fun w' hleads => hleads.changedBy (World.parts?_eq_some.mp hparts).2.1,
    fun type htype deeds w' hchanged => ?_⟩
  rw [htype] at hfresh
  obtain ⟨c', change, hparts', hlater, haccount⟩ := hchanged.parts hparts
  have hfactory := hfresh.builds_by_registry hlater hstandard
  have hflag : c'.flags.preFiltered = true := by
    rw [hlater.flags, hfresh.flags]
    exact ProxyFactory.kept_preFiltered hfilter type
  have hc' := (World.parts?_eq_some.mp hparts').2.1
  refine ⟨c', change, hparts', ?_, fun hmutable below m => ?_,
    fun identity hhost hvisited depth' m arguments result w'' hregular hkey hcall => ?_⟩
  · rw [haccount.advisors, hfresh.advisors]
    rfl
  · obtain ⟨x, hchain, _⟩ := chainFor_quiet host below hc' hfactory m (some type)
    rw [Configuration.settled_mutable hmutable] at hchain
    exact ⟨_, x, hchain, Configuration.outcome_unfiltered hflag _ m type⟩
  · obtain ⟨taken, hcourse⟩ := invoke_course hhost hvisited hparts' hregular hkey hcall
    refine ⟨taken, hcourse, fun passage htaken hmutable => ?_⟩
    subst htaken
    obtain ⟨hlater', u, hprescribed⟩ := hcourse.prescribes hhost hc'
    rw [Source.type_mapPool, htype] at hprescribed
    exact hprescribed.unfiltered (hlater'.chainFactory.trans hfactory)
      (hlater'.flags ▸ hflag) hmutable

section Straying

def serveMethod : MethodSignature := { declaringType := servingType, name := "serve" }

/-- An advisor for no type at all. -/
def straying : Advisor Unit :=
  .pointcut (Pointcut.always.withFilter fun _ => false) ⟨"stray", .around ⟨none, .scripted ()⟩⟩

/-- A factory that filters the advisors that it knows, which are none. -/
def filtering : ProxyFactory Unit := { source := some 0, preFilter := true }

/-- A proxy is made. -/
def filteredWorld : World Unit Unit Unit :=
  (makeProxy Host.idle (answer Host.idle 1) filtering).leaves servingWorld

/-- The advisor is put in. -/
def strayedWorld : World Unit Unit Unit :=
  (answer Host.idle 1 (.insertAdvisor 0 none straying)).leaves filteredWorld

/-- The only advisor refuses the type of the targets, and makes the chain of a method. -/
theorem late_advisors_go_unfiltered_straying :
    ∃ (proxy : Proxy) (c' : Configuration Unit) (source : Source Unit) (chain : Chain Unit)
      (x : World Unit Unit Unit),
      (makeProxy Host.idle (answer Host.idle 1) filtering).run servingWorld =
        some (.ok 0, filteredWorld) ∧
      (answer Host.idle 1 (.insertAdvisor 0 none straying)).run filteredWorld =
        some (.ok (), strayedWorld) ∧
      strayedWorld.parts? 0 = some (proxy, c', source) ∧ c'.frozen = false ∧
      c'.advisors = [straying] ∧
      (chainFor Host.idle (answer Host.idle 1) proxy.configuration serveMethod
        (some servingType)).run strayedWorld = some (.ok chain, x) ∧
      chain.length = 1 ∧ c'.Unfiltered .standard serveMethod servingType (.ok chain) := by
  have hmade : (makeProxy Host.idle (answer Host.idle 1) filtering).run servingWorld =
      some (.ok 0, filteredWorld) := run_eq_leaves (by decide +kernel)
  have hinserted : (answer Host.idle 1 (.insertAdvisor 0 none straying)).run filteredWorld =
      some (.ok (), strayedWorld) := run_eq_leaves (by decide +kernel)
  have hleads : filteredWorld.Leads Host.idle (fun _ => True) strayedWorld :=
    answer_leads hinserted
  have htype : (filteredWorld.parts? 0).map (·.2.2.type) = some (some servingType) := by rfl
  have hadvisors : (strayedWorld.parts? 0).map (fun parts =>
      (parts.1.configuration, parts.2.1.frozen, parts.2.1.advisors)) =
      some (0, false, [straying]) := by rfl
  have hlength : ((chainFor Host.idle (answer Host.idle 1) 0 serveMethod (some servingType)).run
      strayedWorld).map (·.1.toOption.map List.length) = some (some 1) := by decide +kernel
  obtain ⟨proxy, c, source, hparts, hhistories, hchanges⟩ := late_advisors_go_unfiltered Host.idle 1
    filtering servingWorld filteredWorld 0 rfl rfl hmade
  rw [hparts] at htype
  obtain ⟨deeds, hchanged⟩ := hhistories strayedWorld hleads
  obtain ⟨c', change, hparts', _, hchains, _⟩ :=
    hchanges servingType (Option.some.inj htype) deeds strayedWorld hchanged
  rw [hparts'] at hadvisors
  simp only [Option.map_some, Option.some.injEq, Prod.mk.injEq] at hadvisors
  obtain ⟨hconfiguration, hmutable, hheld⟩ := hadvisors
  obtain ⟨outcome, x, hchain, hunfiltered⟩ :=
    hchains hmutable (answer Host.idle 1) serveMethod
  rw [hconfiguration] at hchain
  rw [hchain] at hlength
  rcases outcome with e | chain
  · cases hlength
  · exact ⟨proxy, c', _, chain, x, hmade, hinserted, hparts', hmutable, hheld,
      hconfiguration ▸ hchain, Option.some.inj (Option.some.inj hlength), hunfiltered⟩

end Straying

end Run

end Weaving
