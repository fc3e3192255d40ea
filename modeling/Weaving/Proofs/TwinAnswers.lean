import Weaving.Proofs.ConfigurationChanges
import Weaving.Proofs.TwinCalls

/-
The answers to the requests of code that does not look at the twins.  Configurations change side by
side, those of the twins among them.  Proxies that are made get dispatchers with different numbers in
the two worlds, which such code has no way to tell.  By induction on the depth everything that it asks
is answered side by side.
-/
namespace Weaving

variable {κ σ ν α : Type} {t : Twins κ} {host : Host κ σ ν} {below : Handler κ σ ν}

/-- Changes that may be made to the configurations of the twins.  They do not look at what is
different about these, and bring no advisor into force that may not be. -/
structure Twins.Edits (t : Twins κ)
    (change : Configuration κ → Except AopError (α × Configuration κ)) : Prop where
  blind : ∀ c cache,
    change (c.recast cache) = (change c).map fun done => (done.1, done.2.recast cache)
  unfrozen : ∀ {c a c'}, change c = .ok (a, c') → c.frozen = false ∧ c'.frozen = false
  later : ∀ {c a c'}, change c = .ok (a, c') → c.Later c'
  advisors : ∀ {c a c'}, change c = .ok (a, c') → (∀ b ∈ c.advisors, t.advisors b) →
    ∀ b ∈ c'.advisors, t.advisors b

namespace Twins.Edits

theorem addInterface (type : TypeInfo) :
    t.Edits fun c => (c.addInterface type).map (((), ·)) := by
  have hdone : ∀ {c : Configuration κ} {a : Unit} {c' : Configuration κ},
      (c.addInterface type).map (((), ·)) = .ok (a, c') → c.addInterface type = .ok c' := by
    intro c a c' h
    rcases hadd : c.addInterface type with e | changed
    · rw [hadd] at h
      cases h
    · rw [hadd] at h
      cases h
      rfl
  refine ⟨fun c cache => ?_, fun h => ?_, fun h => ?_, fun h hadvisors => ?_⟩
  · rw [Configuration.addInterface, Configuration.addInterface, Configuration.ensureMutable_recast]
    rcases c.ensureMutable "add interface" with e | _
    · rfl
    · rfl
  · obtain ⟨hmutable, hchanged⟩ := Configuration.addInterface_eq_ok (hdone h)
    exact ⟨hmutable, by rw [hchanged]; exact hmutable⟩
  · obtain ⟨hmutable, rfl⟩ := Configuration.addInterface_eq_ok (hdone h)
    exact Configuration.later_of_mutable hmutable rfl rfl rfl rfl
  · obtain ⟨_, rfl⟩ := Configuration.addInterface_eq_ok (hdone h)
    exact hadvisors

theorem removeAdvisor (position : Nat) : t.Edits fun c => c.removeAdvisor position := by
  refine ⟨fun c cache => ?_, fun h => ?_, fun h => ?_, fun h hadvisors b hb => ?_⟩
  · rw [Configuration.removeAdvisor, Configuration.removeAdvisor,
      Configuration.ensureMutable_recast, Configuration.advisors_recast]
    rcases c.ensureMutable "remove advisor" with e | _
    · rfl
    · rcases c.advisors[position]? with _ | a
      · rfl
      · rfl
  · obtain ⟨hmutable, _, hchanged⟩ := Configuration.removeAdvisor_eq_ok h
    exact ⟨hmutable, by rw [hchanged]; exact hmutable⟩
  · obtain ⟨hmutable, _, rfl⟩ := Configuration.removeAdvisor_eq_ok h
    exact Configuration.later_of_mutable hmutable rfl rfl rfl rfl
  · obtain ⟨_, _, rfl⟩ := Configuration.removeAdvisor_eq_ok h
    exact hadvisors b (List.mem_of_mem_eraseIdx hb)

theorem insertAdvisor (position : Option Nat) {a : Advisor κ} (ha : t.advisors a) :
    t.Edits fun c => (c.insertAdvisor position a).map fun (changed, line) => (line, changed) := by
  have hdone : ∀ {c : Configuration κ} {line : LogLine} {c' : Configuration κ},
      ((c.insertAdvisor position a).map fun (changed, line) => (line, changed)) = .ok (line, c') →
      c.insertAdvisor position a = .ok (c', line) := by
    intro c line c' h
    rcases hinsert : c.insertAdvisor position a with e | changed
    · rw [hinsert] at h
      cases h
    · rw [hinsert] at h
      cases h
      rfl
  refine ⟨fun c cache => ?_, fun h => ?_, fun h => ?_, fun h hadvisors b hb => ?_⟩
  · rw [Configuration.insertAdvisor, Configuration.insertAdvisor, Configuration.ensureMutable_recast]
    rcases c.ensureMutable "add advisor" with e | _
    · rfl
    · by_cases hplace : position.getD c.advisors.length > c.advisors.length
      · have hplace' : position.getD (c.recast cache).advisors.length >
            (c.recast cache).advisors.length := hplace
        simp only [if_pos hplace, if_pos hplace']
        rfl
      · have hplace' : ¬ position.getD (c.recast cache).advisors.length >
            (c.recast cache).advisors.length := hplace
        simp only [if_neg hplace, if_neg hplace']
        rfl
  · obtain ⟨hmutable, hchanged⟩ := Configuration.insertAdvisor_eq_ok (hdone h)
    exact ⟨hmutable, by rw [hchanged]; exact hmutable⟩
  · obtain ⟨hmutable, rfl⟩ := Configuration.insertAdvisor_eq_ok (hdone h)
    exact Configuration.later_of_mutable hmutable rfl rfl rfl rfl
  · obtain ⟨_, rfl⟩ := Configuration.insertAdvisor_eq_ok (hdone h)
    rcases List.mem_append.mp hb with hb | hb
    · exact hadvisors b (List.mem_of_mem_take hb)
    · rcases List.mem_cons.mp hb with rfl | hb
      · exact ha
      · exact hadvisors b (List.mem_of_mem_drop hb)

end Twins.Edits

namespace Run

open Twins (Parallel Meet)

section Configurations

theorem freeze_parallel (id : ConfigurationId) :
    t.Parallel Eq (freeze id : Run κ σ ν Unit) (freeze id) := by
  refine .get_bind fun w v hbeside => ?_
  by_cases hid : id = t.configuration
  · subst hid
    obtain ⟨c, c', source, d, parts⟩ := hbeside.parts
    simp only [parts.first, parts.second, parts.akin.frozen]
    split
    · exact .pure rfl
    · refine (Parallel.modify fun w v h => h.reconfigure fun c c' _ _ hakin => ?_).next
        fun _ => Parallel.log _ _
      have step : c'.Step (Host.idle : Host κ σ ν) c'.freeze := .froze
      have first : c.Step (Host.idle : Host κ σ ν) c.freeze := .froze
      exact ⟨hakin.freeze, first.later.source, step.later⟩
  · rw [hbeside.others id hid]
    split
    · exact .pure rfl
    · split
      · exact .pure rfl
      · exact (Parallel.modify fun w v h => h.mapConfiguration hid _).next fun _ => .log _ _

theorem changeConfiguration_parallel (id : ConfigurationId)
    {change : Configuration κ → Except AopError (α × Configuration κ)}
    (hchange : id = t.configuration → t.Edits change) :
    t.Parallel Eq (changeConfiguration id change : Run κ σ ν (Except AopError α))
      (changeConfiguration id change) := by
  by_cases hid : id = t.configuration
  · obtain ⟨blind, unfrozen, later, advisors⟩ := hchange hid
    subst hid
    intro w v hbeside
    obtain ⟨c, c', source, d, parts⟩ := hbeside.parts
    have hsecond : change c' = (change c).map fun done => (done.1, done.2.recast c'.cache) := by
      rw [parts.akin.same]
      exact blind c c'.cache
    rw [changeConfiguration_run parts.first change, changeConfiguration_run parts.second change,
      hsecond]
    rcases hdone : change c with e | ⟨a, changed⟩
    · exact .some ⟨rfl, hbeside⟩
    · refine .some ⟨rfl, hbeside.reconfigure fun c₁ c₁' hc₁ hc₁' _ => ?_⟩
      obtain rfl : c₁ = c := Option.some.inj (hc₁.symm.trans parts.first)
      obtain rfl : c₁' = c' := Option.some.inj (hc₁'.symm.trans parts.second)
      obtain ⟨hmutable, hstill⟩ := unfrozen hdone
      have hlater := later hdone
      refine ⟨.of_mutable rfl (hlater.chainFactory.trans parts.akin.standard)
        (hlater.methods.trans parts.akin.methods) (advisors hdone parts.akin.advisors) hstill,
        hlater.source, Configuration.later_of_mutable (parts.akin.frozen.trans hmutable) ?_ ?_ ?_ ?_⟩
      · rw [parts.akin.same, Configuration.recast, hlater.flags]
        rfl
      · rw [parts.akin.source]
        exact hlater.source
      · rw [parts.akin.same]
        exact hlater.methods
      · rw [parts.akin.standard', ← parts.akin.standard]
        exact hlater.chainFactory
  · refine .get_bind fun w v hbeside => ?_
    rw [hbeside.others id hid]
    split
    · exact .pure rfl
    · split
      · exact .pure rfl
      · exact (Parallel.modify fun w v h => h.mapConfiguration hid _).next fun _ => .pure rfl

theorem insertAdvisor_parallel (id : ConfigurationId) (position : Option Nat) (a : Advisor κ)
    (ha : id = t.configuration → t.advisors a) :
    t.Parallel Eq (insertAdvisor id position a : Run κ σ ν _) (insertAdvisor id position a) := by
  apply (changeConfiguration_parallel id fun hid => .insertAdvisor position (ha hid)).next
  intro done
  rcases done with e | line
  · exact .pure rfl
  · exact (Parallel.log _ _).next fun _ => .pure rfl

end Configurations

section Proxies

theorem addDispatcher_parallel (d : SubclassDispatcher κ) :
    t.Parallel (fun a b => b = t.across a) (addDispatcher d : Run κ σ ν DispatcherId)
      (addDispatcher d) := by
  refine .exchange fun w v h => ⟨?_, h.pushDispatcher d⟩
  rw [h.dispatched.size, Twins.across_of_le h.dispatched.known]

theorem newDispatcher_parallel (h : host.Unaware below t) {id : ConfigurationId}
    (hid : id ≠ t.configuration) (type : TypeInfo) :
    t.Parallel (fun a b => b = a.map t.across) (newDispatcher host below id type)
      (newDispatcher host below id type) := by
  have hadd : ∀ d, t.Parallel (fun a b => b = a.map t.across)
      (do return .ok (← addDispatcher d) : Run κ σ ν (Except AopError DispatcherId))
      (do return .ok (← addDispatcher d)) :=
    fun d => (addDispatcher_parallel d).bind fun a b hab => .pure (hab ▸ rfl)
  refine .get_bind fun w v hbeside => ?_
  rw [hbeside.others id hid, hbeside.agrees.sources]
  split
  · exact hadd _
  · split
    · apply (precompute_parallel h id fun hsame => absurd hsame hid).next
      intro found
      rcases found with e | chains
      · exact .pure rfl
      · exact (Parallel.log _ _).next fun _ => hadd _
    · exact hadd _

theorem preFilter_parallel (f : ProxyFactory κ) (type : Option TypeInfo) :
    t.Parallel Eq (preFilter f type : Run κ σ ν (Flags × List (Advisor κ))) (preFilter f type) := by
  simp only [preFilter]
  split
  · split
    · exact (Parallel.asking _).next fun _ => (Parallel.log _ _).next fun _ => .pure rfl
    · exact (Parallel.log _ _).next fun _ => .pure rfl
  · exact .pure rfl

theorem chainFactoryOf_parallel (f : ProxyFactory κ) :
    t.Parallel Eq (chainFactoryOf f : Run κ σ ν (ChainFactory κ)) (chainFactoryOf f) := by
  unfold chainFactoryOf
  split
  · exact .pure rfl
  · exact .pure rfl
  · exact (Parallel.logAll _).next fun _ => .pure rfl

theorem newConfiguration_parallel (c : Configuration κ) :
    t.Parallel (fun a b => a = b ∧ a ≠ t.configuration)
      (newConfiguration c : Run κ σ ν ConfigurationId) (newConfiguration c) := by
  refine .exchange fun w v h => ⟨⟨h.size.symm, ?_⟩, h.pushConfiguration c⟩
  obtain ⟨c₀, c', source, d, parts⟩ := h.parts
  exact Nat.ne_of_gt (Array.getElem?_eq_some_iff.mp parts.first).1

theorem prepare_parallel (f : ProxyFactory κ) (id : SourceId) (type : Option TypeInfo) :
    t.Parallel (fun a b => a = b ∧ a.1 ≠ t.configuration)
      (prepare f id type : Run κ σ ν (ConfigurationId × Configuration κ)) (prepare f id type) := by
  refine (preFilter_parallel f type).next fun filtered => ?_
  refine (chainFactoryOf_parallel f).next fun chainFactory => ?_
  refine (newConfiguration_parallel _).bind fun configuration other hmade => ?_
  obtain ⟨rfl, hapart⟩ := hmade
  refine (Parallel.logAll _).next fun _ => ?_
  dsimp only
  split
  · exact (freeze_parallel configuration).next fun _ => .pure ⟨rfl, hapart⟩
  · exact .pure ⟨rfl, hapart⟩

theorem chooseDispatch_parallel (h : host.Unaware below t) {id : ConfigurationId}
    (hid : id ≠ t.configuration) (c : Configuration κ) (type : Option TypeInfo) :
    t.Parallel (fun a b => b = a.map fun chosen => (t.dispatchAcross chosen.1, chosen.2))
      (chooseDispatch host below id c type) (chooseDispatch host below id c type) := by
  simp only [chooseDispatch]
  split
  · split
    · exact .pure rfl
    · refine (newDispatcher_parallel h hid _).bind fun a b hab => ?_
      subst hab
      rcases a with e | dispatcher
      · exact .pure rfl
      · exact .pure rfl
  · exact .pure rfl

theorem place_parallel (h : host.Unaware below t) {id : ConfigurationId}
    (hid : id ≠ t.configuration) (c : Configuration κ) (source : Source κ) :
    t.Parallel Eq (place host below id c source) (place host below id c source) := by
  refine (chooseDispatch_parallel h hid c source.type).bind fun chosen other hchosen => ?_
  subst hchosen
  rcases chosen with e | ⟨dispatch, types⟩
  · exact .pure rfl
  · have hadd : t.Parallel Eq (addProxy ⟨id, dispatch, types⟩ : Run κ σ ν ProxyId)
        (addProxy ⟨id, t.dispatchAcross dispatch, types⟩) :=
      .exchange fun w v hbeside => ⟨hbeside.proxied.size.symm, hbeside.pushProxy hid⟩
    exact hadd.next fun p => (Parallel.log _ _).next fun _ => .pure rfl

theorem makeProxyOver_parallel (h : host.Unaware below t) (f : ProxyFactory κ) (id : SourceId) :
    t.Parallel Eq (makeProxyOver host below f id) (makeProxyOver host below f id) := by
  refine .get_bind fun w v hbeside => ?_
  rw [hbeside.agrees.sources]
  split
  · exact .pure rfl
  · rename_i source _
    rw [makeProxyFor_eq]
    split
    · exact .pure rfl
    · refine (prepare_parallel f id source.type).bind fun made other hmade => ?_
      obtain ⟨rfl, hapart⟩ := hmade
      exact place_parallel h hapart made.2 source

theorem newSource_parallel (source : Source κ) :
    t.Parallel Eq (newSource source : Run κ σ ν SourceId) (newSource source) := by
  refine .exchange fun w v h => ⟨?_, h.elsewhere ?_ ⟨rfl, rfl, rfl⟩ ⟨rfl, rfl, rfl⟩ ?_⟩
  · rw [h.agrees.sources]
  · obtain ⟨htargets, hsources, hcaches, hcurrent, hcalls, hmemory, hdoings⟩ := h.agrees
    have hpushed : v.sources.push source = w.sources.push source := by rw [hsources]
    exact ⟨htargets, hpushed, hcaches, hcurrent, hcalls, hmemory, hdoings⟩
  · have step : w.Step Host.idle (fun _ => True) { w with sources := w.sources.push source } :=
      .madeSource
    exact step.later.sources

theorem makeProxy_parallel (h : host.Unaware below t) (f : ProxyFactory κ) :
    t.Parallel Eq (makeProxy host below f) (makeProxy host below f) := by
  rcases hsource : f.source with _ | id
  · rw [makeProxy_of_none hsource]
    exact (newSource_parallel _).next (makeProxyOver_parallel h f)
  · rw [makeProxy_of_source hsource]
    exact makeProxyOver_parallel h f id

end Proxies

section Answers

theorem newTarget_parallel (type : TypeInfo) (code : κ) :
    t.Parallel Eq (newTarget type code : Run κ σ ν TargetId) (newTarget type code) := by
  refine .exchange fun w v h => ⟨?_, h.elsewhere ?_⟩
  · rw [h.agrees.targets]
  · obtain ⟨htargets, hsources, hcaches, hcurrent, hcalls, hmemory, hdoings⟩ := h.agrees
    have hpushed : v.targets.push ⟨type, code⟩ = w.targets.push ⟨type, code⟩ := by rw [htargets]
    exact ⟨hpushed, hsources, hcaches, hcurrent, hcalls, hmemory, hdoings⟩

theorem newCache_parallel : t.Parallel Eq (newCache : Run κ σ ν CacheId) newCache := by
  refine .exchange fun w v h => ⟨?_, h.elsewhere ?_⟩
  · rw [h.agrees.caches]
  · obtain ⟨htargets, hsources, hcaches, hcurrent, hcalls, hmemory, hdoings⟩ := h.agrees
    have hpushed : v.caches.push .empty = w.caches.push .empty := by rw [hcaches]
    exact ⟨htargets, hsources, hpushed, hcurrent, hcalls, hmemory, hdoings⟩

theorem answerWith_parallel (hbelow : below.Sound host) (h : host.Unaware below t)
    {r : Request κ σ ν} (hr : r.Discreet t) :
    t.Parallel Eq (answerWith host below r) (answerWith host below r) := by
  have hstandalone : ∀ id : CacheId, CacheRef.standalone id ≠ .ofConfiguration t.configuration :=
    fun _ hsame => nomatch hsame
  cases r with
  | remember memory =>
      refine .modify fun w v hbeside => hbeside.elsewhere ?_
      obtain ⟨htargets, hsources, hcaches, hcurrent, hcalls, _, hdoings⟩ := hbeside.agrees
      exact ⟨htargets, hsources, hcaches, hcurrent, hcalls, rfl, hdoings⟩
  | note content => exact .record _
  | publish lines => exact .logAll lines
  | newTarget type code => exact newTarget_parallel type code
  | newSource source => exact newSource_parallel source
  | newCache => exact newCache_parallel
  | target id => exact .read fun w v hbeside => by rw [hbeside.agrees.targets]
  | source id => exact .read fun w v hbeside => by rw [hbeside.agrees.sources]
  | proxy id => exact .read fun w v hbeside => (hbeside.proxied.early id hr).symm
  | configuration id => exact .read fun w v hbeside => (hbeside.others id hr).symm
  | dispatcher id =>
      refine .read fun w v hbeside => ?_
      have hsame := hbeside.dispatched.others id
      rw [Twins.across_of_lt hr] at hsame
      exact hsame.symm
  | cache id => exact .read fun w v hbeside => by rw [hbeside.agrees.caches]
  | proxyEquals id other => exact .read fun w v hbeside => (proxyEquals_beside hbeside id other).symm
  | configurationsEqual left right =>
      exact .read fun w v hbeside => (configurationsEqual_beside hbeside left right).symm
  | proxyHash id => exact .read fun w v hbeside => (proxyHash_beside hbeside id).symm
  | makeProxy factory => exact makeProxy_parallel h factory
  | invoke id m arguments =>
      by_cases hid : id = t.proxy
      · subst hid
        exact invoke_twins hbelow h (hr rfl) arguments
      · exact invoke_other_parallel h hid m arguments
  | addInterface id type => exact changeConfiguration_parallel id fun _ => .addInterface type
  | insertAdvisor id position a => exact insertAdvisor_parallel id position a hr
  | removeAdvisor id position => exact changeConfiguration_parallel id fun _ => .removeAdvisor position
  | freeze id => exact freeze_parallel id
  | chainFor id m target => exact chainFor_parallel h id m target hr
  | precompute id => exact precompute_parallel h id hr
  | newDispatcher id type => exact hr.elim
  | routeBySubclass d id m arguments =>
      have hroute := routeBySubclass_other_parallel (m := m) h hr.2 d arguments
      rw [Twins.across_of_lt hr.1] at hroute
      exact hroute
  | routeByContracts d id m arguments => exact routeByContracts_other_parallel h hr d arguments
  | current => exact .read fun w v hbeside => hbeside.agrees.current.symm
  | expose value => exact .expose value
  | acquire id => exact acquire_parallel h id
  | release id target => exact release_parallel h id target
  | askMatcher matcher m target introductions => exact .asking _
  | canApply a target methods introductions => exact .asking _
  | findApplicable advisors target methods => exact .asking _
  | buildChain registry advisors preFiltered m target => exact buildFrom_parallel _ _ _ _ _
  | runJoinPoint jp => exact runJoinPoint_has (comprises_parallel h) jp
  | cachedChain id m target builder =>
      exact cachedOr_parallel (hstandalone id) m target (code_parallel h (h.asks.builder builder))
  | storeChain id m target chain =>
      exact .modify fun w v hbeside => mapCache_beside hbeside (hstandalone id) _
  | clearCache id => exact .modify fun w v hbeside => mapCache_beside hbeside (hstandalone id) _
  -- what is left is the question for the memory
  | _ => exact .read fun w v hbeside => hbeside.agrees.memory.symm

/-- To every depth, what code asks that does not look at the twins is answered side by side. -/
theorem answer_unaware (hhost : host.Asks (·.Discreet t)) (depth : Nat) :
    host.Unaware (answer host depth) t := by
  induction depth with
  | zero => exact ⟨hhost, fun r _ w v _ => .none⟩
  | succ depth ih => exact ⟨hhost, fun r hr => answerWith_parallel (answer_sound host depth) ih hr⟩

end Answers

end Run

end Weaving
