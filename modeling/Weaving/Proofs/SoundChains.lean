import Weaving.Proofs.Soundness

/-
Reaching targets and finding chains is sound as long as the user code that runs on the way is.  Such
code may record acts of calls that begin later, so those must be among the acts allowed.
-/
namespace Weaving

variable {κ σ ν α : Type}

/-- A handler under which requests are sound and record acts of new calls only. -/
def Handler.Sound (host : Host κ σ ν) (below : Handler κ σ ν) : Prop :=
  ∀ (r : Request κ σ ν) (begun : Nat), Run.Sound host (begun ≤ ·.call) begun (below r)

namespace Run

variable {host : Host κ σ ν} {below : Handler κ σ ν} {allowed : Act → Prop} {begun : Nat}

section Code

theorem Sound.request (hbelow : below.Sound host) (hnew : ∀ a : Act, begun ≤ a.call → allowed a)
    (r : Request κ σ ν) : Sound host allowed begun (below r) :=
  (hbelow r begun).weaken hnew (Nat.le_refl _)

/-- Code is sound when its requests are answered by sound computations. -/
theorem Sound.code (hbelow : below.Sound host) (hnew : ∀ a : Act, begun ≤ a.call → allowed a)
    (p : Code κ σ ν α) : Sound host allowed begun (p.run below) := by
  induction p with
  | done a => exact .pure a
  | ask r resume ih => exact (Sound.request hbelow hnew r).bind ih

end Code

section Targets

theorem callTarget_sound (hbelow : below.Sound host)
    (hnew : ∀ a : Act, begun ≤ a.call → allowed a) (target : TargetId) (m : MethodSignature)
    (arguments : List Value) :
    Sound host allowed begun (callTarget host below target m arguments) := by
  rw [callTarget]
  refine .get_bind (fun w => ?_) fun _ _ => rfl
  split
  · exact .code hbelow hnew _
  · exact .pure _

theorem modifyPool_sound (id : SourceId) (change : Pool → Pool) :
    Sound host allowed begun
      (modify (·.mapSource id (Source.mapPool change)) : Run κ σ ν Unit) :=
  .modify (fun _ => .pooled) fun _ _ => rfl

theorem fillVacancy_sound (hbelow : below.Sound host)
    (hnew : ∀ a : Act, begun ≤ a.call → allowed a) (id : SourceId) (factory : κ) :
    Sound host allowed begun (fillVacancy host below id factory) := by
  rw [fillVacancy]
  apply (Sound.code hbelow hnew _).bind
  intro made
  cases made with
  | ok target => exact .pure _
  | error e => exact (modifyPool_sound id Pool.giveUp).bind fun _ => .pure _

theorem acquire_sound (hbelow : below.Sound host)
    (hnew : ∀ a : Act, begun ≤ a.call → allowed a) (id : SourceId) :
    Sound host allowed begun (acquire host below id) := by
  rw [acquire]
  refine .get_bind (fun w => ?_) fun _ _ => rfl
  split
  · exact .pure _
  · exact .pure _
  · exact .pure _
  · exact (Sound.code hbelow hnew _).bind fun _ => .pure _
  · split
    · exact .pure _
    · exact (modifyPool_sound id _).bind fun _ => .pure _
    · exact (modifyPool_sound id _).bind fun _ => fillVacancy_sound hbelow hnew id _
  · exact .code hbelow hnew _

theorem release_sound (hbelow : below.Sound host)
    (hnew : ∀ a : Act, begun ≤ a.call → allowed a) (id : SourceId) (target : TargetId) :
    Sound host allowed begun (release host below id target) := by
  rw [release]
  refine .get_bind (fun w => ?_) fun _ _ => rfl
  split
  · exact (Sound.trace _).bind fun _ => .pure _
  · exact (modifyPool_sound id _).bind fun _ => .pure _
  · exact .code hbelow hnew _
  · exact .pure _

end Targets

section Chains

theorem buildFrom_sound (registry : AdapterRegistry κ) (advisors : List (Advisor κ))
    (preFiltered : Bool) (m : MethodSignature) (target : Option TypeInfo) :
    Sound host allowed begun
      (buildFrom registry advisors preFiltered m target : Run κ σ ν _) := by
  rw [buildFrom]
  apply (Sound.asking _).bind
  intro built
  cases built with
  | ok chain => exact (Sound.log _).bind fun _ => .pure _
  | error e => exact .pure _

theorem buildChain_sound (hbelow : below.Sound host)
    (hnew : ∀ a : Act, begun ≤ a.call → allowed a) (c : Configuration κ) (m : MethodSignature)
    (target : Option TypeInfo) :
    Sound host allowed begun (buildChain host below c m target) := by
  rw [buildChain]
  split
  · exact buildFrom_sound _ _ _ _ _
  · exact .code hbelow hnew _

theorem recordQuestions_run (questions : List Question) (w : World κ σ ν) :
    ∃ v, (recordQuestions questions : Run κ σ ν Unit).run w = some ((), v) ∧
      v.configurations = w.configurations := by
  induction questions generalizing w with
  | nil => exact ⟨w, rfl, rfl⟩
  | cons q rest ih =>
      obtain ⟨v, hv, hsame⟩ := ih (w.record (.asked q))
      exact ⟨v, hv, hsame⟩

/-- A registry builds what its matchers say, whatever the world. -/
theorem buildChain_of_standard (host : Host κ σ ν) (below : Handler κ σ ν) {c : Configuration κ}
    {registry : AdapterRegistry κ} (hfactory : c.chainFactory = .standard registry)
    (m : MethodSignature) (target : Option TypeInfo) (w : World κ σ ν) :
    ∃ v, (buildChain host below c m target).run w =
        some (((Chain.build registry c.advisors c.flags.preFiltered m target).run []).1, v) ∧
      v.configurations = w.configurations := by
  obtain ⟨v, hv, hsame⟩ := recordQuestions_run
    ((Chain.build registry c.advisors c.flags.preFiltered m target).run []).2 w
  have hasked : (asking (Chain.build registry c.advisors c.flags.preFiltered m target) :
      Run κ σ ν _).run w =
        some (((Chain.build registry c.advisors c.flags.preFiltered m target).run []).1, v) := by
    rw [asking]
    exact run_bind_of_eq_some hv
  rw [buildChain, hfactory]
  simp only [buildFrom]
  rw [run_bind_of_eq_some hasked]
  rcases ((Chain.build registry c.advisors c.flags.preFiltered m target).run []).1 with e | chain
  · exact ⟨v, rfl, hsame⟩
  · exact ⟨v.record (.logged (Chain.builtLine m target chain)), rfl, hsame⟩

/-- Looking a chain up in a cache is sound where remembering what was built is. -/
theorem cachedOr_soundAt {ref : CacheRef} {m : MethodSignature} {target : Option TypeInfo}
    {build : Run κ σ ν (Except AopError (Chain κ))} {w : World κ σ ν}
    (hbuild : SoundAt host allowed build w)
    (hinsert : ∀ chain v, build.run w = some (.ok chain, v) →
      SoundAt host allowed
        (modify (·.mapCache ref (·.insertNew (.of m target) chain)) : Run κ σ ν Unit)
        (v.record (.logged (ChainCache.insertionLine m target)))) :
    SoundAt host allowed (cachedOr ref m target build) w := by
  rw [cachedOr]
  refine .get_bind ?_ fun _ => by cases ref <;> rfl
  split
  · exact .pure _ _
  · apply hbuild.bind
    intro built v hv
    cases built with
    | error e => exact .pure _ _
    | ok chain =>
        apply (SoundAt.record fun a ha => by cases ha).bind
        intro _ v' hv'
        cases hv'
        apply (hinsert chain v hv).bind
        intro _ v' _
        exact .get_bind (.pure _ _) fun _ => by cases ref <;> rfl

theorem chainFor_sound (hbelow : below.Sound host)
    (hnew : ∀ a : Act, begun ≤ a.call → allowed a) (id : ConfigurationId) (m : MethodSignature)
    (target : Option TypeInfo) :
    Sound host allowed begun (chainFor host below id m target) := by
  intro w hw
  rw [chainFor]
  refine .get_bind ?_ fun _ => rfl
  split
  · exact .pure _ _
  · rename_i c hc
    split
    · rename_i hfrozen
      have hbuild := buildChain_sound hbelow hnew c m target w hw
      refine cachedOr_soundAt hbuild fun chain v hv => ?_
      -- the configuration is still frozen when the chain has been built
      obtain ⟨c', hc', hlater⟩ := (hbuild.leads hv).later.configurations id c hc
      have hbuilds : c'.Builds host m target chain :=
        hlater.builds hfrozen ⟨below, w, v, hv⟩
      exact .modify (.configured hc' (.remembered (hlater.frozen hfrozen) hbuilds))
        fun _ _ => rfl
    · exact buildChain_sound hbelow hnew c m target w hw

/-- A frozen configuration goes by what it remembers. -/
theorem chainFor_frozen {w : World κ σ ν} {id : ConfigurationId} {c : Configuration κ}
    (hc : w.configurations[id]? = some c) (hfrozen : c.frozen = true) (m : MethodSignature)
    (target : Option TypeInfo) :
    (chainFor host below id m target).run w =
      (cachedOr (.ofConfiguration id) m target (buildChain host below c m target)).run w := by
  rw [chainFor, get_bind_run]
  simp only [hc, hfrozen, if_true]

/-- A configuration that may still change builds every chain anew. -/
theorem chainFor_mutable {w : World κ σ ν} {id : ConfigurationId} {c : Configuration κ}
    (hc : w.configurations[id]? = some c) (hmutable : c.frozen = false) (m : MethodSignature)
    (target : Option TypeInfo) :
    (chainFor host below id m target).run w = (buildChain host below c m target).run w := by
  rw [chainFor, get_bind_run]
  simp only [hc, hmutable]
  rfl

/-- A frozen configuration that remembers a chain gives it and does nothing else. -/
theorem chainFor_of_remembered {w : World κ σ ν} {id : ConfigurationId} {c : Configuration κ}
    {m : MethodSignature} {target : Option TypeInfo} {chain : Chain κ}
    (hc : w.configurations[id]? = some c) (hfrozen : c.frozen = true)
    (hfound : c.cache.find? (.of m target) = some chain) :
    (chainFor host below id m target).run w = some (.ok chain, w) := by
  have hcache : (w.cache? (.ofConfiguration id)).bind (·.find? (.of m target)) = some chain := by
    simp [World.cache?, hc, hfound]
  rw [chainFor_frozen hc hfrozen, cachedOr, get_bind_run]
  simp only [hcache]
  rfl

/-- A frozen configuration remembers every chain that it gives. -/
theorem chainFor_remembers (hbelow : below.Sound host) {w w' : World κ σ ν} {id : ConfigurationId}
    {c : Configuration κ} {m : MethodSignature} {target : Option TypeInfo} {chain : Chain κ}
    (hc : w.configurations[id]? = some c) (hfrozen : c.frozen = true)
    (hrun : (chainFor host below id m target).run w = some (.ok chain, w')) :
    ∃ c', w'.configurations[id]? = some c' ∧ c'.frozen = true ∧
      c'.cache.find? (.of m target) = some chain := by
  cases hfound : c.cache.find? (.of m target) with
  | some found =>
      rw [chainFor_of_remembered hc hfrozen hfound] at hrun
      cases hrun
      exact ⟨c, hc, hfrozen, hfound⟩
  | none =>
      have hcache : (w.cache? (.ofConfiguration id)).bind (·.find? (.of m target)) = none := by
        simp [World.cache?, hc, hfound]
      rw [chainFor_frozen hc hfrozen, cachedOr, get_bind_run] at hrun
      simp only [hcache] at hrun
      obtain ⟨built, v, hv, hrest⟩ := run_bind_eq_some.mp hrun
      cases built with
      | error e => cases hrest
      | ok fresh =>
          have hbuild : w.Later v :=
            Sound.later (buildChain_sound hbelow (fun _ _ => trivial) c m target) hv
          obtain ⟨c', hc', hlater⟩ := hbuild.configurations id c hc
          have hmodified : (v.configurations.modify id (·.remember (.of m target) fresh))[id]? =
              some (c'.remember (.of m target) fresh) := by
            rw [Array.getElem?_modify, if_pos rfl, hc']
            rfl
          have hfind : (c'.remember (.of m target) fresh).cache.find? (.of m target) =
              some ((c'.cache.find? (.of m target)).getD fresh) :=
            Configuration.find?_insertNew_self c'.cache (.of m target) fresh
          have hasked : (((v.configurations.modify id (·.remember (.of m target) fresh))[id]?).map
              (·.cache)).bind (·.find? (.of m target)) =
              some ((c'.cache.find? (.of m target)).getD fresh) := by
            rw [hmodified]
            exact hfind
          cases hrest
          refine ⟨_, hmodified, hlater.frozen hfrozen, hfind.trans ?_⟩
          exact congrArg (fun found => some (found.getD fresh)) hasked.symm

theorem chainsFor_sound (hbelow : below.Sound host)
    (hnew : ∀ a : Act, begun ≤ a.call → allowed a) (id : ConfigurationId)
    (target : Option TypeInfo) (methods : List MethodSignature) :
    Sound host allowed begun (chainsFor host below id target methods) := by
  induction methods with
  | nil => exact .pure _
  | cons m rest ih =>
      apply (chainFor_sound hbelow hnew id m target).bind
      intro found
      cases found with
      | error e => exact .pure _
      | ok chain =>
          apply ih.bind
          intro later
          cases later with
          | error e => exact .pure _
          | ok later => exact .pure _

theorem precompute_sound (hbelow : below.Sound host)
    (hnew : ∀ a : Act, begun ≤ a.call → allowed a) (id : ConfigurationId) :
    Sound host allowed begun (precompute host below id) := by
  rw [precompute]
  refine .get_bind (fun w => ?_) fun _ _ => rfl
  split
  · exact .pure _
  · split
    · exact chainsFor_sound hbelow hnew id _ _
    · exact .pure _

end Chains

end Run

end Weaving
