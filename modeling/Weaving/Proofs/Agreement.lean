import Weaving.Proofs.Turns

/-
Computations that do the same under two ways of answering requests.  The requests need to be answered
alike only where they are made: properly, in visited worlds, and while what is exposed is one of
certain objects.  So agreement is put together along the structure of a computation, and what it says
besides is that the computation stays in such worlds.
-/
namespace Weaving

variable {κ σ ν α β : Type} {host : Host κ σ ν} {identity : MethodKey → Prop} {guards : Prop}
  {slot : Option Value → Prop}

namespace World

/-- The visited worlds in which what is exposed is one of these. -/
structure Inside (host : Host κ σ ν) (identity : MethodKey → Prop) (slot : Option Value → Prop)
    (w : World κ σ ν) : Prop where
  visited : w.Visited host identity
  exposed : slot w.current

namespace Inside

variable {w w' : World κ σ ν}

theorem turn (h : w.Inside host identity slot) (turn : w.Turn host identity w')
    (current : w'.current = w.current := by rfl) : w'.Inside host identity slot where
  visited := h.visited.turn turn
  exposed := current ▸ h.exposed

theorem record (h : w.Inside host identity slot) (e : Event ν) :
    (w.record e).Inside host identity slot :=
  h.turn .recorded

theorem step (h : w.Inside host identity slot) (step : w.Step host (fun _ => True) w')
    (recalls : w.Recalls w' := by exact .same rfl)
    (dispatchers : w'.dispatchers = w.dispatchers := by rfl)
    (proxies : w'.proxies = w.proxies := by rfl)
    (current : w'.current = w.current := by rfl) : w'.Inside host identity slot :=
  h.turn (.kept step.leads dispatchers proxies recalls) current

end Inside

end World

namespace Run

/-- Two computations do the same from a world, and end where something holds. -/
structure AgreeAt (I : World κ σ ν → Prop) (x y : Run κ σ ν α) (w : World κ σ ν) : Prop where
  same : x.run w = y.run w
  ends : ∀ {a w'}, x.run w = some (a, w') → I w'

/-- Two computations do the same where something holds, and it goes on to hold. -/
def Agree (I : World κ σ ν → Prop) (x y : Run κ σ ν α) : Prop := ∀ w, I w → AgreeAt I x y w

variable {I : World κ σ ν → Prop}

namespace AgreeAt

variable {w : World κ σ ν}

theorem pure (a : α) (hw : I w) :
    AgreeAt I (Pure.pure a : Run κ σ ν α) (Pure.pure a) w where
  same := rfl
  ends h := by
    cases h
    exact hw

theorem bind {x y : Run κ σ ν α} {f g : α → Run κ σ ν β} (hxy : AgreeAt I x y w)
    (hfg : ∀ a v, x.run w = some (a, v) → I v → AgreeAt I (f a) (g a) v) :
    AgreeAt I (x >>= f) (y >>= g) w where
  same := by
    rw [StateT.run_bind, StateT.run_bind, ← hxy.same]
    rcases hx : x.run w with _ | ⟨a, v⟩
    · rfl
    · exact (hfg a v hx (hxy.ends hx)).same
  ends h := by
    obtain ⟨a, v, hx, hf⟩ := run_bind_eq_some.mp h
    exact (hfg a v hx (hxy.ends hx)).ends hf

theorem get_bind {f g : World κ σ ν → Run κ σ ν β} (h : AgreeAt I (f w) (g w) w) :
    AgreeAt I (get >>= f) (get >>= g) w where
  same := h.same
  ends := h.ends

theorem modify {change : World κ σ ν → World κ σ ν} (h : I (change w)) :
    AgreeAt I (modify change : Run κ σ ν Unit) (modify change) w where
  same := rfl
  ends hrun := by
    cases hrun
    exact h

/-- Changing the world and telling what was there before. -/
theorem exchange {change : World κ σ ν → World κ σ ν} {read : World κ σ ν → α}
    (h : I (change w)) :
    AgreeAt I (get >>= fun u => set (change u) >>= fun _ => Pure.pure (read u) : Run κ σ ν α)
      (get >>= fun u => set (change u) >>= fun _ => Pure.pure (read u)) w where
  same := rfl
  ends hrun := by
    cases hrun
    exact h

end AgreeAt

namespace Agree

theorem left {x y : Run κ σ ν α} (h : Agree I x y) : Agree I x x :=
  fun w hw => ⟨rfl, (h w hw).ends⟩

theorem pure (a : α) : Agree I (Pure.pure a : Run κ σ ν α) (Pure.pure a) :=
  fun _ hw => .pure a hw

theorem bind {x y : Run κ σ ν α} {f g : α → Run κ σ ν β} (hxy : Agree I x y)
    (hfg : ∀ a, Agree I (f a) (g a)) : Agree I (x >>= f) (y >>= g) :=
  fun w hw => (hxy w hw).bind fun a v _ hv => hfg a v hv

theorem get_bind {f g : World κ σ ν → Run κ σ ν β} (h : ∀ w, Agree I (f w) (g w)) :
    Agree I (get >>= f) (get >>= g) :=
  fun w hw => .get_bind (h w w hw)

/-- A step that adds no dispatcher and no proxy leads from such worlds to such worlds. -/
theorem modify {change : World κ σ ν → World κ σ ν}
    (step : ∀ w : World κ σ ν, w.Step host (fun _ => True) (change w))
    (recalls : ∀ w : World κ σ ν, w.Recalls (change w) := by intro; exact .same rfl)
    (dispatchers : ∀ w, (change w).dispatchers = w.dispatchers := by intro; rfl)
    (proxies : ∀ w, (change w).proxies = w.proxies := by intro; rfl)
    (current : ∀ w, (change w).current = w.current := by intro; rfl) :
    Agree (World.Inside host identity slot) (modify change : Run κ σ ν Unit) (modify change) :=
  fun w hw => .modify (hw.step (step w) (recalls w) (dispatchers w) (proxies w) (current w))

theorem exchange {change : World κ σ ν → World κ σ ν} {read : World κ σ ν → α}
    (step : ∀ w : World κ σ ν, w.Step host (fun _ => True) (change w))
    (recalls : ∀ w : World κ σ ν, w.Recalls (change w) := by intro; exact .same rfl)
    (dispatchers : ∀ w, (change w).dispatchers = w.dispatchers := by intro; rfl)
    (proxies : ∀ w, (change w).proxies = w.proxies := by intro; rfl)
    (current : ∀ w, (change w).current = w.current := by intro; rfl) :
    Agree (World.Inside host identity slot)
      (get >>= fun u => set (change u) >>= fun _ => Pure.pure (read u) : Run κ σ ν α)
      (get >>= fun u => set (change u) >>= fun _ => Pure.pure (read u)) :=
  fun w hw => .exchange (hw.step (step w) (recalls w) (dispatchers w) (proxies w) (current w))

theorem record (e : Event ν) :
    Agree (World.Inside host identity slot) (Run.record e : Run κ σ ν Unit) (Run.record e) :=
  fun _ hw => .modify (hw.record e)

theorem log (line : LogLine) :
    Agree (World.Inside host identity slot) (Run.log line : Run κ σ ν Unit) (Run.log line) :=
  record _

theorem trace (message : String) :
    Agree (World.Inside host identity slot) (Run.trace message : Run κ σ ν Unit)
      (Run.trace message) :=
  log _

theorem logAll (lines : List LogLine) :
    Agree (World.Inside host identity slot) (Run.logAll lines : Run κ σ ν Unit)
      (Run.logAll lines) := by
  induction lines with
  | nil => exact pure ()
  | cons line rest ih => exact (log line).bind fun _ => ih

theorem recordQuestions (questions : List Question) :
    Agree (World.Inside host identity slot) (Run.recordQuestions questions : Run κ σ ν Unit)
      (Run.recordQuestions questions) := by
  induction questions with
  | nil => exact pure ()
  | cons q rest ih => exact (record _).bind fun _ => ih

theorem asking (x : Asking α) :
    Agree (World.Inside host identity slot) (Run.asking x : Run κ σ ν α) (Run.asking x) :=
  (recordQuestions _).bind fun _ => pure _

theorem beginCall :
    Agree (World.Inside host identity slot) (Run.beginCall : Run κ σ ν Nat) Run.beginCall :=
  exchange fun _ => .begun

end Agree

end Run

/-- The engine and another way of answering proper requests, which agree while what is exposed is one
of certain objects, under user code that makes no other requests. -/
structure Accord (host : Host κ σ ν) (identity : MethodKey → Prop) (guards : Prop)
    (slot : Option Value → Prop) (below below' : Handler κ σ ν) : Prop where
  proper : host.Proper identity guards
  engine : ∃ depth, below = Run.answer host depth
  requests : ∀ r : Request κ σ ν, r.Proper identity guards →
    Run.Agree (World.Inside host identity slot) (below r) (below' r)

theorem Accord.sound {below below' : Handler κ σ ν}
    (h : Accord host identity guards slot below below') : below.Sound host := by
  obtain ⟨depth, rfl⟩ := h.engine
  exact Run.answer_sound host depth

namespace Run

variable {below below' : Handler κ σ ν}

/-- Code that makes proper requests does the same under both ways of answering them. -/
theorem Agree.code (h : Accord host identity guards slot below below') {p : Code κ σ ν α}
    (hp : p.Asks (·.Proper identity guards)) :
    Agree (World.Inside host identity slot) (p.run below) (p.run below') := by
  induction p with
  | done a => exact .pure a
  | ask r resume ih => exact (h.requests r hp.1).bind fun answer => ih answer (hp.2 answer)

section Targets

theorem callTarget_agree (h : Accord host identity guards slot below below') (target : TargetId)
    (m : MethodSignature) (arguments : List Value) :
    Agree (World.Inside host identity slot) (callTarget host below target m arguments)
      (callTarget host below' target m arguments) := by
  refine .get_bind fun w => ?_
  split
  · exact .code h (h.proper.target _ _ _ _)
  · exact .pure _

theorem modifyPool_agree (id : SourceId) (change : Pool → Pool) :
    Agree (World.Inside host identity slot)
      (modify (·.mapSource id (Source.mapPool change)) : Run κ σ ν Unit)
      (modify (·.mapSource id (Source.mapPool change))) :=
  .modify fun _ => .pooled

theorem fillVacancy_agree (h : Accord host identity guards slot below below') (id : SourceId)
    (factory : κ) :
    Agree (World.Inside host identity slot) (fillVacancy host below id factory)
      (fillVacancy host below' id factory) := by
  apply (Agree.code h (h.proper.make factory)).bind
  intro made
  rcases made with e | target
  · exact (modifyPool_agree id _).bind fun _ => .pure _
  · exact .pure _

theorem acquire_agree (h : Accord host identity guards slot below below') (id : SourceId) :
    Agree (World.Inside host identity slot) (acquire host below id) (acquire host below' id) := by
  refine .get_bind fun w => ?_
  split
  · exact .pure _
  · exact .pure _
  · exact .pure _
  · exact (Agree.code h (h.proper.make _)).bind fun _ => .pure _
  · split
    · exact .pure _
    · exact (modifyPool_agree id _).bind fun _ => .pure _
    · exact (modifyPool_agree id _).bind fun _ => fillVacancy_agree h id _
  · exact .code h (h.proper.acquire _)

theorem release_agree (h : Accord host identity guards slot below below') (id : SourceId)
    (target : TargetId) :
    Agree (World.Inside host identity slot) (release host below id target)
      (release host below' id target) := by
  refine .get_bind fun w => ?_
  split
  · exact (Agree.trace _).bind fun _ => .pure _
  · exact (modifyPool_agree id _).bind fun _ => .pure _
  · exact .code h (h.proper.release _ _)
  · exact .pure _

end Targets

section Chains

theorem buildFrom_agree (registry : AdapterRegistry κ) (advisors : List (Advisor κ))
    (preFiltered : Bool) (m : MethodSignature) (target : Option TypeInfo) :
    Agree (World.Inside host identity slot)
      (buildFrom registry advisors preFiltered m target : Run κ σ ν _)
      (buildFrom registry advisors preFiltered m target) := by
  apply (Agree.asking _).bind
  intro built
  rcases built with e | chain
  · exact .pure _
  · exact (Agree.log _).bind fun _ => .pure _

theorem buildChain_agree (h : Accord host identity guards slot below below')
    (c : Configuration κ) (m : MethodSignature) (target : Option TypeInfo) :
    Agree (World.Inside host identity slot) (buildChain host below c m target)
      (buildChain host below' c m target) := by
  rw [buildChain, buildChain]
  split
  · exact buildFrom_agree _ _ _ _ _
  · exact .code h (h.proper.chain _ _ _ _ _)

/-- Looking a chain up in a cache agrees where remembering what was built stays inside. -/
theorem cachedOr_agreeAt {ref : CacheRef} {m : MethodSignature} {target : Option TypeInfo}
    {build build' : Run κ σ ν (Except AopError (Chain κ))} {w : World κ σ ν}
    (hw : w.Inside host identity slot)
    (hbuild : AgreeAt (World.Inside host identity slot) build build' w)
    (hinsert : ∀ chain v, build.run w = some (.ok chain, v) → v.Inside host identity slot →
      (v.mapCache ref (·.insertNew (.of m target) chain)).Inside host identity slot) :
    AgreeAt (World.Inside host identity slot) (cachedOr ref m target build)
      (cachedOr ref m target build') w := by
  refine .get_bind ?_
  split
  · exact .pure _ hw
  · apply hbuild.bind
    intro built v hv hinside
    rcases built with e | chain
    · exact .pure _ hinside
    · have hremembered := (hinsert chain v hv hinside).record
        (.logged (ChainCache.insertionLine m target))
      refine (AgreeAt.modify (hinside.record _)).bind fun _ v' hv' _ => ?_
      cases hv'
      refine (AgreeAt.modify ?_).bind fun _ v' _ hv' => .get_bind (.pure _ hv')
      cases ref <;> exact hremembered

theorem chainFor_agree (h : Accord host identity guards slot below below') (id : ConfigurationId)
    (m : MethodSignature) (target : Option TypeInfo) :
    Agree (World.Inside host identity slot) (chainFor host below id m target)
      (chainFor host below' id m target) := by
  intro w hw
  refine .get_bind ?_
  split
  · exact .pure _ hw
  · rename_i c hc
    have hbuild := buildChain_agree h c m target w hw
    split
    · rename_i hfrozen
      refine cachedOr_agreeAt hw hbuild fun chain v hv hinside => ?_
      -- what was built is remembered by a configuration that is still frozen
      have hbuilding : w.Later v :=
        Sound.later (buildChain_sound h.sound (fun _ _ => trivial) c m target) hv
      obtain ⟨c', hc', hlater⟩ := hbuilding.configurations id c hc
      obtain ⟨depth, rfl⟩ := h.engine
      rw [← hlater.buildChain_eq hfrozen] at hv
      exact ⟨.remembered hw.visited hv hinside.visited hc' (hlater.frozen hfrozen),
        hinside.exposed⟩
    · exact hbuild

theorem chainsFor_agree (h : Accord host identity guards slot below below')
    (id : ConfigurationId) (target : Option TypeInfo) (methods : List MethodSignature) :
    Agree (World.Inside host identity slot) (chainsFor host below id target methods)
      (chainsFor host below' id target methods) := by
  induction methods with
  | nil => exact .pure _
  | cons m rest ih =>
      apply (chainFor_agree h id m target).bind
      intro found
      rcases found with e | chain
      · exact .pure _
      · apply ih.bind
        intro later
        rcases later with e | later
        · exact .pure _
        · exact .pure _

theorem precompute_agree (h : Accord host identity guards slot below below')
    (id : ConfigurationId) :
    Agree (World.Inside host identity slot) (precompute host below id)
      (precompute host below' id) := by
  refine .get_bind fun w => ?_
  split
  · exact .pure _
  · split
    · exact chainsFor_agree h id _ _
    · exact .pure _

end Chains

end Run

end Weaving
