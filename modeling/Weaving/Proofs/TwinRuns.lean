import Weaving.Proofs.Compounds
import Weaving.Proofs.Exposure
import Weaving.Proofs.Twins

/-
Computations that go on side by side.  From worlds side by side they end alike, again in worlds side
by side.  User code does so that does not look at the twins, and so does everything that the engine
does apart from them: reaching targets, building chains, and calls on other proxies.
-/
namespace Weaving

variable {κ σ ν α β γ δ : Type}

namespace Twins

/-- Two runs have no answer, or answers that correspond, in worlds side by side. -/
def Meet (t : Twins κ) (A : α → β → Prop) :
    Option (α × World κ σ ν) → Option (β × World κ σ ν) → Prop :=
  Option.Rel fun p q => A p.1 q.1 ∧ t.Beside t.methods p.2 q.2

/-- Two computations end with answers that correspond when they begin in worlds side by side. -/
def Parallel (t : Twins κ) (A : α → β → Prop) (x : Run κ σ ν α) (y : Run κ σ ν β) : Prop :=
  ∀ w v, t.Beside t.methods w v → t.Meet A (x.run w) (y.run v)

variable {t : Twins κ}

theorem Beside.current {ahead : List MethodSignature} {w v : World κ σ ν} (h : t.Beside ahead w v)
    (value : Option Value) :
    t.Beside ahead { w with current := value } { v with current := value } := by
  obtain ⟨htargets, hsources, hcaches, _, hcalls, hmemory, hdoings⟩ := h.agrees
  exact h.elsewhere ⟨htargets, hsources, hcaches, rfl, hcalls, hmemory, hdoings⟩

theorem Beside.exposing {ahead : List MethodSignature} {w v : World κ σ ν}
    (h : t.Beside ahead w v) (exposed : Bool) (p : ProxyId) :
    t.Beside ahead (w.exposing exposed p) (v.exposing exposed p) := by
  cases exposed with
  | false => exact h
  | true => exact h.current _

theorem Beside.restoring {ahead : List MethodSignature} {w v : World κ σ ν}
    (h : t.Beside ahead w v) (exposed : Bool) (before : Option Value) :
    t.Beside ahead (w.restoring exposed before) (v.restoring exposed before) := by
  cases exposed with
  | false => exact h
  | true => exact h.current _

theorem Meet.bind {A : α → β → Prop} {B : γ → δ → Prop} {x : Run κ σ ν α} {y : Run κ σ ν β}
    {f : α → Run κ σ ν γ} {g : β → Run κ σ ν δ} {w v : World κ σ ν}
    (hxy : t.Meet A (x.run w) (y.run v)) (hfg : ∀ a b, A a b → t.Parallel B (f a) (g b)) :
    t.Meet B ((x >>= f).run w) ((y >>= g).run v) := by
  rw [StateT.run_bind, StateT.run_bind]
  generalize x.run w = p at hxy
  generalize y.run v = q at hxy
  cases hxy with
  | none => exact .none
  | some h => exact hfg _ _ h.1 _ _ h.2

/-- What runs while a proxy may be exposed goes on side by side if it does with the proxy exposed. -/
theorem Meet.whileExposed {ahead : List MethodSignature} {exposed : Bool} {p : ProxyId}
    {x y : Run κ σ ν α} {w v : World κ σ ν} (h : t.Beside ahead w v)
    (hxy : ∀ w v, t.Beside ahead w v → t.Meet Eq (x.run w) (y.run v)) :
    t.Meet Eq ((Run.whileExposed exposed p x).run w) ((Run.whileExposed exposed p y).run v) := by
  have hcurrent : v.current = w.current := h.agrees.current
  rw [Run.whileExposed_run, Run.whileExposed_run, hcurrent]
  have hmeet := hxy _ _ (h.exposing exposed p)
  generalize x.run (w.exposing exposed p) = left at hmeet
  generalize y.run (v.exposing exposed p) = right at hmeet
  cases hmeet with
  | none => exact .none
  | some hends => exact .some ⟨hends.1, hends.2.restoring exposed w.current⟩

namespace Parallel

theorem pure {A : α → β → Prop} {a : α} {b : β} (h : A a b) :
    t.Parallel A (Pure.pure a : Run κ σ ν α) (Pure.pure b) :=
  fun _ _ hbeside => .some ⟨h, hbeside⟩

theorem bind {A : α → β → Prop} {B : γ → δ → Prop} {x : Run κ σ ν α} {y : Run κ σ ν β}
    {f : α → Run κ σ ν γ} {g : β → Run κ σ ν δ} (hxy : t.Parallel A x y)
    (hfg : ∀ a b, A a b → t.Parallel B (f a) (g b)) : t.Parallel B (x >>= f) (y >>= g) :=
  fun w v h => (hxy w v h).bind hfg

/-- What follows equal answers. -/
theorem next {B : γ → δ → Prop} {x y : Run κ σ ν α} {f : α → Run κ σ ν γ} {g : α → Run κ σ ν δ}
    (hxy : t.Parallel Eq x y) (hfg : ∀ a, t.Parallel B (f a) (g a)) :
    t.Parallel B (x >>= f) (y >>= g) :=
  hxy.bind fun a _ hab => hab ▸ hfg a

theorem get_bind {B : γ → δ → Prop} {f : World κ σ ν → Run κ σ ν γ} {g : World κ σ ν → Run κ σ ν δ}
    (hfg : ∀ w v, t.Beside t.methods w v → t.Parallel B (f w) (g v)) :
    t.Parallel B (get >>= f) (get >>= g) :=
  fun w v h => hfg w v h w v h

/-- Telling something that is the same in both worlds. -/
theorem read {f g : World κ σ ν → α} (h : ∀ w v, t.Beside t.methods w v → f w = g v) :
    t.Parallel Eq (get >>= fun w => Pure.pure (f w) : Run κ σ ν α)
      (get >>= fun w => Pure.pure (g w)) :=
  get_bind fun w v hbeside => .pure (h w v hbeside)

theorem modify {f g : World κ σ ν → World κ σ ν}
    (h : ∀ w v, t.Beside t.methods w v → t.Beside t.methods (f w) (g v)) :
    t.Parallel Eq (modify f : Run κ σ ν Unit) (modify g) :=
  fun w v hbeside => .some ⟨rfl, h w v hbeside⟩

/-- Changing the worlds and telling what was there before. -/
theorem exchange {A : α → β → Prop} {f g : World κ σ ν → World κ σ ν} {read : World κ σ ν → α}
    {read' : World κ σ ν → β}
    (h : ∀ w v, t.Beside t.methods w v → A (read w) (read' v) ∧ t.Beside t.methods (f w) (g v)) :
    t.Parallel A (get >>= fun u => set (f u) >>= fun _ => Pure.pure (read u) : Run κ σ ν α)
      (get >>= fun u => set (g u) >>= fun _ => Pure.pure (read' u)) :=
  fun w v hbeside => .some (h w v hbeside)

theorem record (e : Event ν) : t.Parallel Eq (Run.record e : Run κ σ ν Unit) (Run.record e) :=
  .modify fun _ _ h => h.record e

/-- Lines may be logged that are not the same. -/
theorem log (line line' : LogLine) :
    t.Parallel Eq (Run.log line : Run κ σ ν Unit) (Run.log line') :=
  .modify fun _ _ h => h.quiet (.record rfl) (.record rfl)

theorem trace (message message' : String) :
    t.Parallel Eq (Run.trace message : Run κ σ ν Unit) (Run.trace message') :=
  log _ _

theorem logAll (lines : List LogLine) :
    t.Parallel Eq (Run.logAll lines : Run κ σ ν Unit) (Run.logAll lines) := by
  induction lines with
  | nil => exact pure rfl
  | cons line rest ih => exact (log line line).next fun _ => ih

theorem asking (x : Asking α) :
    t.Parallel Eq (Run.asking x : Run κ σ ν α) (Run.asking x) := by
  have hquestions : ∀ questions, t.Parallel Eq (Run.recordQuestions questions : Run κ σ ν Unit)
      (Run.recordQuestions questions) := by
    intro questions
    induction questions with
    | nil => exact pure rfl
    | cons q rest ih => exact (record _).next fun _ => ih
  exact (hquestions _).next fun _ => pure rfl

theorem beginCall : t.Parallel Eq (Run.beginCall : Run κ σ ν Nat) Run.beginCall := by
  refine exchange fun w v h => ⟨h.agrees.calls.symm, h.elsewhere ?_⟩
  obtain ⟨htargets, hsources, hcaches, hcurrent, hcalls, hmemory, hdoings⟩ := h.agrees
  exact ⟨htargets, hsources, hcaches, hcurrent, congrArg (· + 1) hcalls, hmemory, hdoings⟩

theorem expose (value : Option Value) :
    t.Parallel Eq (Run.expose value : Run κ σ ν (Option Value)) (Run.expose value) :=
  exchange fun _ _ h => ⟨h.agrees.current.symm, h.current value⟩

theorem whileExposed (exposed : Bool) (p : ProxyId) {x y : Run κ σ ν α}
    (hxy : t.Parallel Eq x y) :
    t.Parallel Eq (Run.whileExposed exposed p x) (Run.whileExposed exposed p y) :=
  fun _ _ h => Meet.whileExposed h hxy

end Parallel

end Twins

/-- User code does not look at the twins, and what it asks is answered side by side. -/
structure Host.Unaware (host : Host κ σ ν) (below : Handler κ σ ν) (t : Twins κ) : Prop where
  asks : host.Asks (·.Discreet t)
  requests : ∀ r, r.Discreet t → t.Parallel Eq (below r) (below r)

namespace Run

open Twins (Parallel)

variable {t : Twins κ} {host : Host κ σ ν} {below : Handler κ σ ν}

theorem composes_parallel : Composes fun α (x : Run κ σ ν α) => t.Parallel Eq x x where
  pure _ := .pure rfl
  bind hx hf := hx.next hf
  record := .record

theorem code_parallel (h : host.Unaware below t) {p : Code κ σ ν α} (hp : p.Asks (·.Discreet t)) :
    t.Parallel Eq (p.run below) (p.run below) :=
  composes_parallel.program h.requests hp

section Targets

theorem callTarget_parallel (h : host.Unaware below t) (target : TargetId) (m : MethodSignature)
    (arguments : List Value) :
    t.Parallel Eq (callTarget host below target m arguments)
      (callTarget host below target m arguments) := by
  refine .get_bind fun w v hbeside => ?_
  rw [hbeside.agrees.targets]
  split
  · exact code_parallel h (h.asks.target _ _ _ _)
  · exact .pure rfl

theorem mapSource_parallel (id : SourceId) (change : Pool → Pool) :
    t.Parallel Eq (modify (·.mapSource id (Source.mapPool change)) : Run κ σ ν Unit)
      (modify (·.mapSource id (Source.mapPool change))) := by
  refine .modify fun w v h => h.elsewhere ?_ ⟨rfl, rfl, rfl⟩ ⟨rfl, rfl, rfl⟩ ?_
  · obtain ⟨htargets, hsources, hcaches, hcurrent, hcalls, hmemory, hdoings⟩ := h.agrees
    have hmapped : v.sources.modify id (Source.mapPool change) =
        w.sources.modify id (Source.mapPool change) := by rw [hsources]
    exact ⟨htargets, hmapped, hcaches, hcurrent, hcalls, hmemory, hdoings⟩
  · have step : w.Step Host.idle (fun _ => True) (w.mapSource id (Source.mapPool change)) := .pooled
    exact step.later.sources

theorem fillVacancy_parallel (h : host.Unaware below t) (id : SourceId) (factory : κ) :
    t.Parallel Eq (fillVacancy host below id factory) (fillVacancy host below id factory) := by
  apply (code_parallel h (h.asks.make factory)).next
  intro made
  rcases made with e | target
  · exact (mapSource_parallel id _).next fun _ => .pure rfl
  · exact .pure rfl

theorem acquire_parallel (h : host.Unaware below t) (id : SourceId) :
    t.Parallel Eq (acquire host below id) (acquire host below id) := by
  refine .get_bind fun w v hbeside => ?_
  rw [hbeside.agrees.sources]
  split
  · exact .pure rfl
  · exact .pure rfl
  · exact .pure rfl
  · exact (code_parallel h (h.asks.make _)).next fun _ => .pure rfl
  · split
    · exact .pure rfl
    · exact (mapSource_parallel id _).next fun _ => .pure rfl
    · exact (mapSource_parallel id _).next fun _ => fillVacancy_parallel h id _
  · exact code_parallel h (h.asks.acquire _)

theorem release_parallel (h : host.Unaware below t) (id : SourceId) (target : TargetId) :
    t.Parallel Eq (release host below id target) (release host below id target) := by
  refine .get_bind fun w v hbeside => ?_
  rw [hbeside.agrees.sources]
  split
  · exact (Parallel.trace _ _).next fun _ => .pure rfl
  · exact (mapSource_parallel id _).next fun _ => .pure rfl
  · exact code_parallel h (h.asks.release _ _)
  · exact .pure rfl

end Targets

/-- Calls whose chain has been settled go on side by side. -/
theorem comprises_parallel (h : host.Unaware below t) :
    Comprises host below (·.Discreet t) fun _ x => t.Parallel Eq x x where
  toComposes := composes_parallel
  beginCall := .beginCall
  asks := h.asks
  requests := h.requests
  callTarget := callTarget_parallel h

section Chains

theorem buildFrom_parallel (registry : AdapterRegistry κ) (advisors : List (Advisor κ))
    (preFiltered : Bool) (m : MethodSignature) (target : Option TypeInfo) :
    t.Parallel Eq (buildFrom registry advisors preFiltered m target : Run κ σ ν _)
      (buildFrom registry advisors preFiltered m target) := by
  apply (Parallel.asking _).next
  intro built
  rcases built with e | chain
  · exact .pure rfl
  · exact (Parallel.log _ _).next fun _ => .pure rfl

theorem buildChain_parallel (h : host.Unaware below t) (c : Configuration κ) (m : MethodSignature)
    (target : Option TypeInfo) :
    t.Parallel Eq (buildChain host below c m target) (buildChain host below c m target) := by
  rw [buildChain]
  split
  · exact buildFrom_parallel _ _ _ _ _
  · exact code_parallel h (h.asks.chain _ _ _ _ _)

/-- Caches other than that of the twins' configurations are the same in worlds side by side. -/
theorem cache?_beside {ahead : List MethodSignature} {w v : World κ σ ν}
    (h : t.Beside ahead w v) {ref : CacheRef} (href : ref ≠ .ofConfiguration t.configuration) :
    v.cache? ref = w.cache? ref := by
  cases ref with
  | ofConfiguration id =>
      rw [World.cache?, World.cache?, h.others id fun hid => href (hid ▸ rfl)]
  | standalone id => rw [World.cache?, World.cache?, h.agrees.caches]

theorem mapCache_beside {ahead : List MethodSignature} {w v : World κ σ ν}
    (h : t.Beside ahead w v) {ref : CacheRef} (href : ref ≠ .ofConfiguration t.configuration)
    (change : ChainCache κ → ChainCache κ) :
    t.Beside ahead (w.mapCache ref change) (v.mapCache ref change) := by
  cases ref with
  | ofConfiguration id => exact h.mapConfiguration (fun hid => href (hid ▸ rfl)) _
  | standalone id =>
      obtain ⟨htargets, hsources, hcaches, hcurrent, hcalls, hmemory, hdoings⟩ := h.agrees
      exact h.elsewhere ⟨htargets, hsources, congrArg (·.modify id change) hcaches, hcurrent, hcalls,
        hmemory, hdoings⟩

theorem cachedOr_parallel {ref : CacheRef} (href : ref ≠ .ofConfiguration t.configuration)
    (m : MethodSignature) (target : Option TypeInfo)
    {build : Run κ σ ν (Except AopError (Chain κ))} (hbuild : t.Parallel Eq build build) :
    t.Parallel Eq (cachedOr ref m target build) (cachedOr ref m target build) := by
  refine .get_bind fun w v hbeside => ?_
  rw [cache?_beside hbeside href]
  split
  · exact .pure rfl
  · apply hbuild.next
    intro built
    rcases built with e | chain
    · exact .pure rfl
    · refine (Parallel.log _ _).next fun _ => ?_
      refine (Parallel.modify fun w v h => mapCache_beside h href _).next fun _ => ?_
      exact .read fun w v h => by rw [cache?_beside h href]

theorem chainFor_other_parallel (h : host.Unaware below t) {id : ConfigurationId}
    (hid : id ≠ t.configuration) (m : MethodSignature) (target : Option TypeInfo) :
    t.Parallel Eq (chainFor host below id m target) (chainFor host below id m target) := by
  refine .get_bind fun w v hbeside => ?_
  rw [hbeside.others id hid]
  split
  · exact .pure rfl
  · rename_i c _
    split
    · exact cachedOr_parallel (by simpa using hid) m target (buildChain_parallel h c m target)
    · exact buildChain_parallel h c m target

end Chains

section Equality

/-- Configurations in worlds side by side differ in what makes no difference to equality. -/
theorem configuration_beside {ahead : List MethodSignature} {w v : World κ σ ν}
    (h : t.Beside ahead w v) (id : ConfigurationId) :
    v.configurations[id]? = w.configurations[id]? ∨ ∃ c cache,
      w.configurations[id]? = some c ∧ v.configurations[id]? = some (c.recast cache) := by
  by_cases hid : id = t.configuration
  · subst hid
    obtain ⟨c, c', source, d, parts⟩ := h.parts
    refine .inr ⟨c, c'.cache, parts.first, ?_⟩
    rw [← parts.akin.same]
    exact parts.second
  · exact .inl (h.others id hid)

theorem identity?_beside {ahead : List MethodSignature} {w v : World κ σ ν}
    (h : t.Beside ahead w v) (id : SourceId) : v.identity? id = w.identity? id := by
  rw [World.identity?, World.identity?, h.agrees.sources]

theorem configurationsEqual_beside {ahead : List MethodSignature} {w v : World κ σ ν}
    (h : t.Beside ahead w v) (a b : ConfigurationId) :
    v.configurationsEqual a b = w.configurationsEqual a b := by
  have hagree : ∀ c c' : Configuration κ, v.configurationsAgree c c' = w.configurationsAgree c c' := by
    intro c c'
    simp only [World.configurationsAgree, identity?_beside h]
  have hleft : ∀ (c c' : Configuration κ) cache,
      w.configurationsAgree (c.recast cache) c' = w.configurationsAgree c c' := fun _ _ _ => rfl
  have hright : ∀ (c c' : Configuration κ) cache,
      w.configurationsAgree c (c'.recast cache) = w.configurationsAgree c c' := fun _ _ _ => rfl
  rw [World.configurationsEqual, World.configurationsEqual]
  rcases configuration_beside h a with ha | ⟨c, cache, hc, ha⟩
  · rw [ha]
    rcases w.configurations[a]? with _ | c
    · rfl
    · rcases configuration_beside h b with hb | ⟨c', cache', hc', hb⟩
      · simp only [hb, hagree]
      · simp only [hb, hc', hagree, hright]
  · rw [ha, hc]
    rcases configuration_beside h b with hb | ⟨c', cache', hc', hb⟩
    · rw [hb]
      rcases w.configurations[b]? with _ | c'
      · rfl
      · simp only [hagree, hleft]
    · simp only [hb, hc', hagree, hleft, hright]

/-- Proxies have the same configurations in worlds side by side. -/
theorem proxy_beside {ahead : List MethodSignature} {w v : World κ σ ν} (h : t.Beside ahead w v)
    (p : ProxyId) : (v.proxies[p]?).map (·.configuration) = (w.proxies[p]?).map (·.configuration) := by
  by_cases hp : p = t.proxy
  · subst hp
    obtain ⟨d, hfirst⟩ := h.proxied.first
    rw [hfirst, h.proxied.second]
    rfl
  · rw [h.proxied.others p hp, Option.map_map]
    rfl

theorem proxyEquals_beside {ahead : List MethodSignature} {w v : World κ σ ν}
    (h : t.Beside ahead w v) (p : ProxyId) (other : Option Value) :
    v.proxyEquals p other = w.proxyEquals p other := by
  have hequal : ∀ q, v.proxiesEqual p q = w.proxiesEqual p q := by
    intro q
    have hconfigurations : ∀ u : World κ σ ν, u.proxiesEqual p q =
        (decide (p = q) || ((u.proxies[p]?).map (·.configuration)).any fun a =>
          ((u.proxies[q]?).map (·.configuration)).any fun b => u.configurationsEqual a b) := by
      intro u
      rw [World.proxiesEqual]
      cases u.proxies[p]? <;> cases u.proxies[q]? <;> rfl
    rw [hconfigurations, hconfigurations, proxy_beside h p, proxy_beside h q]
    simp only [configurationsEqual_beside h]
  unfold World.proxyEquals
  split
  · exact hequal _
  · rfl

theorem proxyHash_beside {ahead : List MethodSignature} {w v : World κ σ ν}
    (h : t.Beside ahead w v) (p : ProxyId) : v.proxyHash p = w.proxyHash p := by
  have hsource : ∀ u : World κ σ ν, (u.configurationOf? p).bind (fun c => u.identity? c.source) =
      ((u.proxies[p]?).map (·.configuration)).bind fun id =>
        ((u.configurations[id]?).map (·.source)).bind u.identity? := by
    intro u
    rw [World.configurationOf?]
    cases u.proxies[p]? with
    | none => rfl
    | some proxy =>
        change (u.configurations[proxy.configuration]?).bind _ =
          ((u.configurations[proxy.configuration]?).map _).bind _
        cases u.configurations[proxy.configuration]? <;> rfl
  have hconfiguration : ∀ id : ConfigurationId,
      (v.configurations[id]?).map (·.source) = (w.configurations[id]?).map (·.source) := by
    intro id
    rcases configuration_beside h id with hsame | ⟨c, cache, hc, hc'⟩
    · rw [hsame]
    · rw [hc, hc']
      rfl
  have hidentity : v.identity? = w.identity? := funext (identity?_beside h)
  rw [World.proxyHash, World.proxyHash, hsource, hsource, proxy_beside h p, hidentity]
  simp only [hconfiguration]

theorem identityAnswer_parallel (p : ProxyId) (m : MethodSignature) (arguments : List Value)
    (equalsDefined hashDefined : Bool) :
    t.Parallel Eq (identityAnswer p m arguments equalsDefined hashDefined : Run κ σ ν _)
      (identityAnswer p m arguments equalsDefined hashDefined) := by
  unfold identityAnswer
  split
  · split
    · exact .pure rfl
    · exact .read fun w v h => by rw [proxyEquals_beside h]
  · split
    · exact .pure rfl
    · exact .read fun w v h => by rw [proxyHash_beside h]
  · exact (Parallel.trace _ _).next fun _ => .pure rfl
  · exact .pure rfl

end Equality

section Calls

variable {p : ProxyId} {proxy proxy' : Proxy} {m : MethodSignature}

theorem finishCall_congr (h : proxy.standsInFor m = proxy'.standsInFor m)
    (target : Option TargetId) (result : Result) :
    (finishCall p proxy m target result : Run κ σ ν Result) =
      finishCall p proxy' m target result := by
  rcases result with e | value
  · rfl
  · rcases value with _ | value
    · rfl
    · rw [finishCall, finishCall, processReturn, processReturn, h]

/-- It matters to a call only whether its proxy stands in for the target. -/
theorem runSettled_congr (h : proxy.standsInFor m = proxy'.standsInFor m) (id : SourceId)
    (source : Source κ) (arguments : List Value) (chain : Chain κ) :
    runSettled host below p proxy id source m arguments chain =
      runSettled host below p proxy' id source m arguments chain := by
  simp only [runSettled, finishCall_congr h]

theorem runSettled_parallel (h : host.Unaware below t)
    (hstands : proxy.standsInFor m = proxy'.standsInFor m) (id : SourceId) (source : Source κ)
    (arguments : List Value) (chain : Chain κ) :
    t.Parallel Eq (runSettled host below p proxy id source m arguments chain)
      (runSettled host below p proxy' id source m arguments chain) := by
  rw [runSettled_congr hstands]
  exact runSettled_has (comprises_parallel h) (acquire_parallel h id) (release_parallel h id) p proxy'
    source m arguments chain

theorem invokeAdvised_other_parallel (h : host.Unaware below t)
    (hother : proxy.configuration ≠ t.configuration) (c : Configuration κ) (source : Source κ)
    (arguments : List Value) (fixed : Option (Chain κ)) :
    t.Parallel Eq (invokeAdvised host below p proxy c source m arguments fixed)
      (invokeAdvised host below p (t.proxyAcross proxy) c source m arguments fixed) := by
  refine .whileExposed _ p ?_
  rcases fixed with _ | chain
  · apply (chainFor_other_parallel h hother m source.type).next
    intro found
    rcases found with e | chain
    · exact .pure rfl
    · exact runSettled_parallel h rfl _ source arguments chain
  · exact runSettled_parallel h rfl _ source arguments chain

theorem withProxy_other_parallel (hp : p ≠ t.proxy)
    {body body' : Proxy → Configuration κ → Source κ → Run κ σ ν Result}
    (hbody : ∀ proxy c source, proxy.configuration ≠ t.configuration →
      t.Parallel Eq (body proxy c source) (body' (t.proxyAcross proxy) c source)) :
    t.Parallel Eq (withProxy p m body) (withProxy p m body') := by
  refine .get_bind fun w v hbeside => ?_
  rw [hbeside.proxied.others p hp]
  rcases hproxy : w.proxies[p]? with _ | proxy
  · exact .pure rfl
  · have hother := hbeside.proxied.apart p proxy hp hproxy
    simp only [Option.map_some]
    rw [show (t.proxyAcross proxy).configuration = proxy.configuration from rfl,
      hbeside.others _ hother, hbeside.agrees.sources]
    split
    · exact .pure rfl
    · split
      · exact .pure rfl
      · exact hbody proxy _ _ hother

theorem routeByContracts_other_parallel (h : host.Unaware below t) (hp : p ≠ t.proxy)
    (d : ContractDispatcher) (arguments : List Value) :
    t.Parallel Eq (routeByContracts host below d p m arguments)
      (routeByContracts host below d p m arguments) := by
  refine withProxy_other_parallel hp fun proxy c source hother => ?_
  apply (identityAnswer_parallel p m arguments _ _).next
  intro own
  rcases own with _ | result
  · dsimp only
    rw [show (t.proxyAcross proxy).isInstanceOf m.declaringType =
      proxy.isInstanceOf m.declaringType from rfl]
    split
    · exact .pure rfl
    · exact invokeAdvised_other_parallel h hother c source arguments none
  · exact .pure rfl

theorem accept_other_parallel (h : host.Unaware below t) (d : SubclassDispatcher κ)
    {id : ConfigurationId} (hid : id ≠ t.configuration) (source : Source κ) :
    t.Parallel Eq (accept host below d id source m) (accept host below d id source m) := by
  unfold accept
  split
  · exact .pure rfl
  · split
    · exact .pure rfl
    · split
      · exact .pure rfl
      · refine .get_bind fun w v hbeside => ?_
        rw [hbeside.others id hid]
        split
        · exact .pure rfl
        · apply (chainFor_other_parallel h hid m _).next
          intro found
          rcases found with e | chain
          · exact .pure rfl
          · exact .pure rfl

theorem callbackOf_other_parallel (h : host.Unaware below t) (dispatcher : DispatcherId)
    {id : ConfigurationId} (hid : id ≠ t.configuration) (source : Source κ) :
    t.Parallel Eq (callbackOf host below dispatcher id source m)
      (callbackOf host below (t.across dispatcher) id source m) := by
  refine .get_bind fun w v hbeside => ?_
  rw [hbeside.dispatched.others dispatcher]
  split
  · exact .pure rfl
  · rename_i d _
    split
    · exact .pure rfl
    · apply (accept_other_parallel h d hid source).next
      intro chosen
      rcases chosen with e | callback
      · exact .pure rfl
      · refine (Parallel.trace _ _).next fun _ => ?_
        refine (Parallel.modify fun w v h => h.mapDispatcher dispatcher _).next fun _ => ?_
        exact .read fun w v h => by rw [h.dispatched.others dispatcher]

theorem perform_other_parallel (h : host.Unaware below t) (callback : Callback κ)
    (hother : proxy.configuration ≠ t.configuration) (c : Configuration κ) (source : Source κ)
    (arguments : List Value) :
    t.Parallel Eq (perform host below callback p proxy c source m arguments)
      (perform host below callback p (t.proxyAcross proxy) c source m arguments) := by
  cases callback with
  | noOverride | proxyEquals | proxyHash =>
      exact (identityAnswer_parallel p m arguments false false).next fun _ => .pure rfl
  | advised => exact invokeAdvised_other_parallel h hother c source arguments none
  | fixedChain chain => exact invokeAdvised_other_parallel h hother c source arguments (some chain)
  | invokeTarget => exact invokeAdvised_other_parallel h hother c source arguments (some [])
  | dispatchTarget =>
      exact dispatchTarget_has (comprises_parallel h) (acquire_parallel h c.source) p proxy m arguments

theorem routeBySubclass_other_parallel (h : host.Unaware below t) (hp : p ≠ t.proxy)
    (dispatcher : DispatcherId) (arguments : List Value) :
    t.Parallel Eq (routeBySubclass host below dispatcher p m arguments)
      (routeBySubclass host below (t.across dispatcher) p m arguments) := by
  refine withProxy_other_parallel hp fun proxy c source hother => ?_
  apply (callbackOf_other_parallel h dispatcher hother source).next
  intro chosen
  rcases chosen with e | callback
  · exact .pure rfl
  · exact perform_other_parallel h callback hother c source arguments

/-- Calls on other proxies go on side by side. -/
theorem invoke_other_parallel (h : host.Unaware below t) (hp : p ≠ t.proxy) (m : MethodSignature)
    (arguments : List Value) :
    t.Parallel Eq (invoke host below p m arguments) (invoke host below p m arguments) := by
  refine .get_bind fun w v hbeside => ?_
  rw [hbeside.proxied.others p hp]
  rcases w.proxies[p]? with _ | proxy
  · exact .pure rfl
  · simp only [Option.map_some]
    refine (Parallel.trace _ _).next fun _ => ?_
    rcases hdispatch : proxy.dispatch with d | dispatcher
    · simp only [Twins.proxyAcross, Twins.dispatchAcross, hdispatch]
      exact routeByContracts_other_parallel h hp d arguments
    · simp only [Twins.proxyAcross, Twins.dispatchAcross, hdispatch]
      exact routeBySubclass_other_parallel h hp dispatcher arguments

end Calls

end Run

end Weaving
