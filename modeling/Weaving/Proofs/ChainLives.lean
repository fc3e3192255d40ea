import Weaving.Proofs.Histories
import Mathlib.Data.List.Dedup

/-
The chains that a configuration remembers, over its whole life.  A life is any sequence of requests
for chains, changes of advisors and contracts, refused ones included, and freezing.  While the
configuration may change it remembers nothing.  Once it is frozen it remembers one chain for each key
for which building has succeeded since, and answers as if it built every chain anew.
-/
namespace Weaving

variable {κ σ ν : Type}

/-- A chain factory is a function of its inputs that treats equal keys alike, as far as the methods
and target types go that are known. -/
def ChainFactory.Computes (host : Host κ σ ν) (below : Handler κ σ ν) (factory : ChainFactory κ)
    (known : MethodSignature → Option TypeInfo → Prop)
    (outcome : List (Advisor κ) → Bool → ChainKey → Except AopError (Chain κ)) : Prop :=
  ∀ c : Configuration κ, c.chainFactory = factory → ∀ m target, known m target →
    ∀ w : World κ σ ν, ∃ w', (Run.buildChain host below c m target).run w =
        some (outcome c.advisors c.flags.preFiltered (.of m target), w') ∧
      w'.configurations = w.configurations

/-- What can be done to the chains of a configuration. -/
inductive ChainOperation (κ : Type) where
  | chainFor (m : MethodSignature) (target : Option TypeInfo)
  | precompute
  | addInterface (type : TypeInfo)
  | insertAdvisor (position : Option Nat) (a : Advisor κ)
  | removeAdvisor (position : Nat)
  | freeze

namespace ChainOperation

/-- The request that does it. -/
def request (id : ConfigurationId) : ChainOperation κ → Request κ σ ν
  | .chainFor m target => .chainFor id m target
  | .precompute => .precompute id
  | .addInterface type => .addInterface id type
  | .insertAdvisor position a => .insertAdvisor id position a
  | .removeAdvisor position => .removeAdvisor id position
  | .freeze => .freeze id

/-- The methods and target types that chains are wanted for, given the target type of the source. -/
def wants (c : Configuration κ) (type : Option TypeInfo) :
    ChainOperation κ → List (MethodSignature × Option TypeInfo)
  | .chainFor m target => [(m, target)]
  | .precompute => c.methods.map fun m => (m, type)
  | _ => []

/-- The keys for which building succeeds while a frozen configuration is at it: all up to the first
that fails. -/
def builds (outcome : ChainKey → Except AopError (Chain κ)) (c : Configuration κ)
    (type : Option TypeInfo) (op : ChainOperation κ) : List ChainKey :=
  if c.frozen then
    ((op.wants c type).map fun q => ChainKey.of q.1 q.2).takeWhile fun key => (outcome key).isOk
  else []

end ChainOperation

/-- The target type of the source of a configuration. -/
def World.typeFor (w : World κ σ ν) (c : Configuration κ) : Option TypeInfo :=
  (w.sources[c.source]?).bind Source.type

/-- The life of a configuration up to a world, with the keys for which building has succeeded since
it was frozen. -/
inductive Life (host : Host κ σ ν) (below : Handler κ σ ν) (id : ConfigurationId)
    (known : MethodSignature → Option TypeInfo → Prop)
    (outcome : List (Advisor κ) → Bool → ChainKey → Except AopError (Chain κ)) :
    World κ σ ν → List ChainKey → Prop where
  | made {w : World κ σ ν} {c : Configuration κ} (found : w.configurations[id]? = some c)
      (unfrozen : c.frozen = false) (fresh : c.cache = .empty)
      (computes : c.chainFactory.Computes host below known outcome) :
      Life host below id known outcome w []
  | elsewhere {w w' : World κ σ ν} {built : List ChainKey}
      (before : Life host below id known outcome w built)
      (same : w'.configurations[id]? = w.configurations[id]?) :
      Life host below id known outcome w' built
  | did {w w' : World κ σ ν} {built : List ChainKey} {c : Configuration κ}
      {op : ChainOperation κ} {answer : (op.request id : Request κ σ ν).Answer}
      (before : Life host below id known outcome w built)
      (found : w.configurations[id]? = some c)
      (asked : ∀ q ∈ op.wants c (w.typeFor c), known q.1 q.2)
      (ran : (Run.answerWith host below (op.request id)).run w = some (answer, w')) :
      Life host below id known outcome w'
        (built ++ op.builds (outcome c.advisors c.flags.preFiltered) c (w.typeFor c))

namespace Configuration

/-- A configuration after the outcome of building a chain. -/
def learn (c : Configuration κ) (key : ChainKey) :
    Except AopError (Chain κ) → Configuration κ
  | .ok chain => c.remember key chain
  | .error _ => c

/-- The chains that a configuration remembers are those built since it was frozen. -/
structure Keeps (host : Host κ σ ν) (below : Handler κ σ ν)
    (known : MethodSignature → Option TypeInfo → Prop)
    (outcome : List (Advisor κ) → Bool → ChainKey → Except AopError (Chain κ))
    (c : Configuration κ) (built : List ChainKey) : Prop where
  computes : c.chainFactory.Computes host below known outcome
  unfrozen : c.frozen = false → c.cache = .empty ∧ built = []
  nodup : (c.cache.entries.map Prod.fst).Nodup
  mem_iff : ∀ key, key ∈ c.cache.entries.map Prod.fst ↔ key ∈ built
  right : ∀ key chain, c.cache.find? key = some chain →
    outcome c.advisors c.flags.preFiltered key = .ok chain

theorem find?_eq_none_iff {cache : ChainCache κ} {key : ChainKey} :
    cache.find? key = none ↔ key ∉ cache.entries.map Prod.fst :=
  Assoc.get?_eq_none_iff

theorem remember_of_find? {c : Configuration κ} {key : ChainKey} {found : Chain κ}
    (h : c.cache.find? key = some found) (chain : Chain κ) : c.remember key chain = c := by
  have hsame : c.cache.insertNew key chain = c.cache := by
    rw [ChainCache.insertNew, Assoc.putNew_of_get? h chain]
  rw [remember, hsame]

theorem entries_remember {c : Configuration κ} {key : ChainKey}
    (h : c.cache.find? key = none) (chain : Chain κ) :
    (c.remember key chain).cache.entries.map Prod.fst = c.cache.entries.map Prod.fst ++ [key] :=
  Assoc.map_fst_putNew h chain

variable {host : Host κ σ ν} {below : Handler κ σ ν}
  {known : MethodSignature → Option TypeInfo → Prop}
  {outcome : List (Advisor κ) → Bool → ChainKey → Except AopError (Chain κ)}
  {c : Configuration κ} {built : List ChainKey}

theorem learn_same (c : Configuration κ) (key : ChainKey)
    (result : Except AopError (Chain κ)) :
    (c.learn key result).frozen = c.frozen ∧ (c.learn key result).advisors = c.advisors ∧
      (c.learn key result).flags = c.flags ∧
      (c.learn key result).chainFactory = c.chainFactory := by
  cases result <;> simp [learn, remember]

/-- Learning the outcome of building keeps a frozen configuration right. -/
theorem Keeps.learn (h : c.Keeps host below known outcome built) (hfrozen : c.frozen = true)
    (key : ChainKey) :
    (c.learn key (outcome c.advisors c.flags.preFiltered key)).Keeps host below known outcome
      (built ++ [key].takeWhile fun key =>
        (outcome c.advisors c.flags.preFiltered key).isOk) := by
  have hstill : ∀ c' : Configuration κ, c'.frozen = c.frozen → ¬ c'.frozen = false := by
    intro c' hsame
    simp [hsame, hfrozen]
  rcases houtcome : outcome c.advisors c.flags.preFiltered key with e | chain
  · simpa [Configuration.learn, houtcome, Except.isOk, Except.toBool] using h
  · have hkeys : [key].takeWhile (fun key =>
        (outcome c.advisors c.flags.preFiltered key).isOk) = [key] := by
      simp [houtcome, Except.isOk, Except.toBool]
    rw [hkeys]
    rcases hfound : c.cache.find? key with _ | found
    · have hnew := find?_eq_none_iff.mp hfound
      refine ⟨h.computes, ?_, ?_, ?_, ?_⟩
      · intro hunfrozen
        exact absurd hunfrozen (hstill (c.remember key chain) rfl)
      · rw [Configuration.learn, entries_remember hfound]
        exact List.nodup_append.mpr ⟨h.nodup, by simp, by
          intro a ha b hb
          rw [List.mem_singleton.mp hb]
          exact fun hab => hnew (hab ▸ ha)⟩
      · intro other
        rw [Configuration.learn, entries_remember hfound, List.mem_append, List.mem_append,
          h.mem_iff]
      · intro other given hgiven
        by_cases hkey : other = key
        · subst hkey
          rw [Configuration.learn, remember, find?_insertNew_self, hfound] at hgiven
          cases hgiven
          exact houtcome
        · exact h.right other given
            ((Assoc.get?_putNew_of_ne chain c.cache.entries hkey).symm.trans hgiven)
    · rw [Configuration.learn, remember_of_find? hfound]
      refine ⟨h.computes, ?_, h.nodup, ?_, h.right⟩
      · intro hunfrozen
        exact absurd hunfrozen (hstill c rfl)
      · intro other
        have hmem : key ∈ c.cache.entries.map Prod.fst := by
          by_contra hnew
          rw [find?_eq_none_iff.mpr hnew] at hfound
          cases hfound
        rw [h.mem_iff, List.mem_append, List.mem_singleton]
        constructor
        · exact fun hbuilt => .inl hbuilt
        · rintro (hbuilt | rfl)
          · exact hbuilt
          · exact (h.mem_iff other).mp hmem

/-- What may still change about a configuration that is not frozen does not matter to its chains. -/
theorem Keeps.changed {c' : Configuration κ} (h : c.Keeps host below known outcome built)
    (hunfrozen : c.frozen = false) (hfactory : c'.chainFactory = c.chainFactory)
    (hcache : c'.cache = .empty) : c'.Keeps host below known outcome built := by
  obtain ⟨_, rfl⟩ := h.unfrozen hunfrozen
  refine ⟨?_, ?_, ?_, ?_, ?_⟩
  · rw [hfactory]
    exact h.computes
  · exact fun _ => ⟨hcache, rfl⟩
  · simp [hcache, ChainCache.empty]
  · simp [hcache, ChainCache.empty]
  · intro key chain hfound
    rw [hcache] at hfound
    cases hfound

end Configuration

namespace Run

open Weaving.Configuration (Keeps)

variable {host : Host κ σ ν} {below : Handler κ σ ν} {id : ConfigurationId}
  {known : MethodSignature → Option TypeInfo → Prop}
  {outcome : List (Advisor κ) → Bool → ChainKey → Except AopError (Chain κ)}
  {c : Configuration κ} {built : List ChainKey} {w w' : World κ σ ν}

theorem cache?_ofConfiguration (hc : w.configurations[id]? = some c) (key : ChainKey) :
    (w.cache? (.ofConfiguration id)).bind (·.find? key) = c.cache.find? key := by
  simp [World.cache?, hc]

/-- Asking for a chain answers what building it would, and a frozen configuration learns it. -/
theorem chainFor_run (h : c.Keeps host below known outcome built)
    (hc : w.configurations[id]? = some c) {m : MethodSignature} {target : Option TypeInfo}
    (hknown : known m target) :
    ∃ v, (chainFor host below id m target).run w =
        some (outcome c.advisors c.flags.preFiltered (.of m target), v) ∧
      v.configurations[id]? = some
        (if c.frozen then
          c.learn (.of m target) (outcome c.advisors c.flags.preFiltered (.of m target))
        else c) := by
  obtain ⟨v, hbuild, hsame⟩ := h.computes c rfl m target hknown w
  have hv : v.configurations[id]? = some c := by rw [hsame, hc]
  by_cases hfrozen : c.frozen = true
  · rw [if_pos hfrozen]
    rcases hfound : c.cache.find? (.of m target) with _ | chain
    · rw [chainFor_frozen hc hfrozen, cachedOr, get_bind_run]
      simp only [cache?_ofConfiguration hc, hfound]
      rw [run_bind_of_eq_some hbuild]
      rcases houtcome : outcome c.advisors c.flags.preFiltered (.of m target) with e | chain
      · exact ⟨v, rfl, hv⟩
      · have hlearnt : (v.configurations.modify id (·.remember (.of m target) chain))[id]? =
            some (c.remember (.of m target) chain) := by
          rw [Array.getElem?_modify, if_pos rfl, hv]
          rfl
        refine ⟨(v.record (.logged (ChainCache.insertionLine m target))).mapCache
          (.ofConfiguration id) (·.insertNew (.of m target) chain), ?_, hlearnt⟩
        have hasked : (((v.configurations.modify id (·.remember (.of m target) chain))[id]?).map
            (·.cache)).bind (·.find? (.of m target)) = some chain := by
          rw [hlearnt]
          simp [Configuration.remember, Configuration.find?_insertNew_self, hfound]
        change some (Except.ok ((((v.configurations.modify id
          (·.remember (.of m target) chain))[id]?).map (·.cache)).bind
            (·.find? (.of m target)) |>.getD chain), _) = _
        rw [hasked]
        rfl
    · rw [chainFor_of_remembered hc hfrozen hfound, h.right _ _ hfound, Configuration.learn,
        Configuration.remember_of_find? hfound]
      exact ⟨w, rfl, hc⟩
  · rw [if_neg hfrozen, chainFor, get_bind_run]
    simp only [hc, hfrozen]
    exact ⟨v, hbuild, hv⟩

/-- Asking for several chains stops at the first that cannot be built. -/
theorem chainsFor_keeps {target : Option TypeInfo} {methods : List MethodSignature} :
    ∀ {w : World κ σ ν} {c : Configuration κ} {built : List ChainKey},
      c.Keeps host below known outcome built → w.configurations[id]? = some c →
      c.frozen = true → (∀ m ∈ methods, known m target) →
      ∃ answer v c', (chainsFor host below id target methods).run w = some (answer, v) ∧
        v.configurations[id]? = some c' ∧
        (c'.frozen = true ∧ c'.advisors = c.advisors ∧ c'.flags = c.flags) ∧
        c'.Keeps host below known outcome
          (built ++ (methods.map fun m => ChainKey.of m target).takeWhile fun key =>
            (outcome c.advisors c.flags.preFiltered key).isOk) := by
  induction methods with
  | nil =>
      intro w c built h hc hfrozen _
      exact ⟨.ok [], w, c, rfl, hc, ⟨hfrozen, rfl, rfl⟩, by simpa using h⟩
  | cons m rest ih =>
      intro w c built h hc hfrozen hknown
      obtain ⟨v, hv, hv'⟩ := chainFor_run h hc (hknown m List.mem_cons_self)
      have hlearnt := h.learn hfrozen (.of m target)
      rw [if_pos hfrozen] at hv'
      rw [chainsFor, run_bind_of_eq_some hv, List.map_cons]
      rcases houtcome : outcome c.advisors c.flags.preFiltered (.of m target) with e | chain
      · rw [houtcome] at hv' hlearnt
        refine ⟨.error e, v, c, rfl, hv', ⟨hfrozen, rfl, rfl⟩, ?_⟩
        simpa [houtcome, Except.isOk, Except.toBool] using h
      · rw [houtcome] at hv' hlearnt
        obtain ⟨hsameFrozen, hsameAdvisors, hsameFlags, _⟩ :=
          c.learn_same (.of m target) (.ok chain)
        obtain ⟨answer, u, c', hu, hc', ⟨hfrozen', hadvisors, hflags⟩, hkeeps⟩ :=
          ih hlearnt hv' (hsameFrozen.trans hfrozen)
            fun m' hm' => hknown m' (List.mem_cons_of_mem m hm')
        simp only [hsameAdvisors, hsameFlags] at hadvisors hflags hkeeps
        have hbuilt : [ChainKey.of m target].takeWhile (fun key =>
            (outcome c.advisors c.flags.preFiltered key).isOk) = [.of m target] := by
          simp [houtcome, Except.isOk, Except.toBool]
        rw [hbuilt, List.append_assoc] at hkeeps
        dsimp only
        rw [run_bind_of_eq_some hu,
          List.takeWhile_cons_of_pos (by simp [houtcome, Except.isOk, Except.toBool])]
        rcases answer with e | later
        · exact ⟨_, u, c', rfl, hc', ⟨hfrozen', hadvisors, hflags⟩, hkeeps⟩
        · exact ⟨_, u, c', rfl, hc', ⟨hfrozen', hadvisors, hflags⟩, hkeeps⟩

/-- Asking for one chain. -/
theorem chainFor_keeps (h : c.Keeps host below known outcome built)
    (hc : w.configurations[id]? = some c) {m : MethodSignature} {target type : Option TypeInfo}
    (hknown : known m target) {answer : Except AopError (Chain κ)}
    (hrun : (chainFor host below id m target).run w = some (answer, w')) :
    ∃ c', w'.configurations[id]? = some c' ∧
      c'.Keeps host below known outcome
        (built ++ (ChainOperation.chainFor m target : ChainOperation κ).builds
          (outcome c.advisors c.flags.preFiltered) c type) ∧
      (c.frozen = true → c'.frozen = true ∧ c'.advisors = c.advisors ∧ c'.flags = c.flags) := by
  obtain ⟨v, hv, hc'⟩ := chainFor_run h hc hknown
  cases hv.symm.trans hrun
  by_cases hfrozen : c.frozen = true
  · rw [if_pos hfrozen] at hc'
    obtain ⟨hsameFrozen, hadvisors, hflags, _⟩ := c.learn_same (.of m target)
      (outcome c.advisors c.flags.preFiltered (.of m target))
    refine ⟨_, hc', ?_, fun _ => ⟨hsameFrozen.trans hfrozen, hadvisors, hflags⟩⟩
    simpa [ChainOperation.builds, ChainOperation.wants, hfrozen] using
      h.learn hfrozen (.of m target)
  · rw [if_neg hfrozen] at hc'
    refine ⟨c, hc', ?_, fun hf => absurd hf hfrozen⟩
    simpa [ChainOperation.builds, hfrozen] using h

/-- Asking for the chains of all declared methods. -/
theorem precompute_keeps (h : c.Keeps host below known outcome built)
    (hc : w.configurations[id]? = some c)
    (hknown : ∀ m ∈ c.methods, known m (w.typeFor c))
    {answer : Except AopError (List (MethodSignature × Chain κ))}
    (hrun : (precompute host below id).run w = some (answer, w')) :
    ∃ c', w'.configurations[id]? = some c' ∧
      c'.Keeps host below known outcome (built ++ (ChainOperation.precompute : ChainOperation κ).builds
        (outcome c.advisors c.flags.preFiltered) c (w.typeFor c)) ∧
      (c.frozen = true → c'.frozen = true ∧ c'.advisors = c.advisors ∧ c'.flags = c.flags) := by
  rw [precompute, get_bind_run] at hrun
  simp only [hc] at hrun
  by_cases hfrozen : c.frozen = true
  · simp only [hfrozen, if_true] at hrun
    obtain ⟨answer', v, c', hv, hc', hsame, hkeeps⟩ := chainsFor_keeps h hc hfrozen hknown
    cases hv.symm.trans hrun
    refine ⟨c', hc', ?_, fun _ => hsame⟩
    simpa [ChainOperation.builds, ChainOperation.wants, hfrozen, List.map_map,
      Function.comp_def] using hkeeps
  · simp only [hfrozen] at hrun
    cases hrun
    refine ⟨c, hc, ?_, fun hf => absurd hf hfrozen⟩
    simpa [ChainOperation.builds, hfrozen] using h

/-- Building by a registry is a function of its inputs as far as matchers treat equal keys alike. -/
theorem standard_computes {registry : AdapterRegistry κ}
    (h : ∀ advisors preFiltered m target, known m target →
      ((Chain.build registry advisors preFiltered m target).run []).1 =
        outcome advisors preFiltered (.of m target)) :
    (ChainFactory.standard registry).Computes host below known outcome := by
  intro c hfactory m target hknown w
  rw [← h c.advisors c.flags.preFiltered m target hknown]
  exact buildChain_of_standard host below hfactory m target w

/-- A change of a configuration is refused, or it changes the configuration and nothing else. -/
theorem changeConfiguration_eq_some {α : Type}
    {change : Configuration κ → Except AopError (α × Configuration κ)}
    (hc : w.configurations[id]? = some c) {answer : Except AopError α}
    (h : (changeConfiguration id change : Run κ σ ν _).run w = some (answer, w')) :
    (∃ e, change c = .error e ∧ answer = .error e ∧ w' = w) ∨
      ∃ a c', change c = .ok (a, c') ∧ answer = .ok a ∧ w'.configurations[id]? = some c' := by
  rw [changeConfiguration, get_bind_run] at h
  simp only [hc] at h
  rcases hchange : change c with e | ⟨a, c'⟩
  · simp only [hchange] at h
    cases h
    exact .inl ⟨e, rfl, rfl, rfl⟩
  · simp only [hchange] at h
    cases h
    refine .inr ⟨a, c', rfl, rfl, ?_⟩
    change (w.configurations.modify id _)[id]? = _
    rw [Array.getElem?_modify, if_pos rfl, hc]
    rfl

/-- A change that is allowed only before freezing leaves what is remembered right. -/
theorem changeConfiguration_keeps {α : Type}
    {change : Configuration κ → Except AopError (α × Configuration κ)}
    (h : c.Keeps host below known outcome built) (hc : w.configurations[id]? = some c)
    (hchange : ∀ a c', change c = .ok (a, c') →
      c.frozen = false ∧ c'.chainFactory = c.chainFactory ∧ c'.cache = c.cache)
    {answer : Except AopError α}
    (hrun : (changeConfiguration id change : Run κ σ ν _).run w = some (answer, w')) :
    ∃ c', w'.configurations[id]? = some c' ∧ c'.Keeps host below known outcome built ∧
      (c.frozen = true → c' = c) := by
  rcases changeConfiguration_eq_some hc hrun with ⟨e, _, _, rfl⟩ | ⟨a, c', hdone, _, hc'⟩
  · exact ⟨c, hc, h, fun _ => rfl⟩
  · obtain ⟨hunfrozen, hfactory, hcache⟩ := hchange a c' hdone
    obtain ⟨hempty, _⟩ := h.unfrozen hunfrozen
    refine ⟨c', hc', h.changed hunfrozen hfactory (hcache.trans hempty), ?_⟩
    intro hfrozen
    simp [hunfrozen] at hfrozen

theorem addInterface_keeps (h : c.Keeps host below known outcome built)
    (hc : w.configurations[id]? = some c) {type : TypeInfo} {answer : Except AopError Unit}
    (hrun : (answerWith host below (.addInterface id type)).run w = some (answer, w')) :
    ∃ c', w'.configurations[id]? = some c' ∧ c'.Keeps host below known outcome built ∧
      (c.frozen = true → c' = c) := by
  refine changeConfiguration_keeps h hc (fun a c' hdone => ?_) hrun
  rcases hadd : c.addInterface type with e | changed
  · simp [hadd, Except.map] at hdone
  · rw [hadd] at hdone
    cases hdone
    obtain ⟨hunfrozen, rfl⟩ := Configuration.addInterface_eq_ok hadd
    exact ⟨hunfrozen, rfl, rfl⟩

theorem insertAdvisor_keeps (h : c.Keeps host below known outcome built)
    (hc : w.configurations[id]? = some c) {position : Option Nat} {a : Advisor κ}
    {answer : Except AopError Unit}
    (hrun : (insertAdvisor id position a : Run κ σ ν _).run w = some (answer, w')) :
    ∃ c', w'.configurations[id]? = some c' ∧ c'.Keeps host below known outcome built ∧
      (c.frozen = true → c' = c) := by
  obtain ⟨done, v, hdone, hend⟩ := run_bind_eq_some.mp hrun
  have hsame : w'.configurations = v.configurations := by
    rcases done with e | line
    · cases hend
      rfl
    · cases hend
      rfl
  rw [hsame]
  refine changeConfiguration_keeps h hc (fun line c' hinserted => ?_) hdone
  rcases hinsert : c.insertAdvisor position a with e | ⟨changed, line'⟩
  · simp [hinsert, Except.map] at hinserted
  · rw [hinsert] at hinserted
    cases hinserted
    obtain ⟨hunfrozen, rfl⟩ := Configuration.insertAdvisor_eq_ok hinsert
    exact ⟨hunfrozen, rfl, rfl⟩

theorem removeAdvisor_keeps (h : c.Keeps host below known outcome built)
    (hc : w.configurations[id]? = some c) {position : Nat} {answer : Except AopError (Advisor κ)}
    (hrun : (answerWith host below (.removeAdvisor id position)).run w = some (answer, w')) :
    ∃ c', w'.configurations[id]? = some c' ∧ c'.Keeps host below known outcome built ∧
      (c.frozen = true → c' = c) := by
  refine changeConfiguration_keeps h hc (fun a c' hremoved => ?_) hrun
  obtain ⟨hunfrozen, _, rfl⟩ := Configuration.removeAdvisor_eq_ok hremoved
  exact ⟨hunfrozen, rfl, rfl⟩

theorem freeze_keeps (h : c.Keeps host below known outcome built)
    (hc : w.configurations[id]? = some c)
    (hrun : (freeze id : Run κ σ ν Unit).run w = some ((), w')) :
    ∃ c', w'.configurations[id]? = some c' ∧ c'.Keeps host below known outcome built ∧
      (c.frozen = true → c' = c) := by
  rw [freeze, get_bind_run] at hrun
  simp only [hc] at hrun
  by_cases hfrozen : c.frozen = true
  · simp only [hfrozen, if_true] at hrun
    cases hrun
    exact ⟨c, hc, h, fun _ => rfl⟩
  · simp only [hfrozen] at hrun
    cases hrun
    have hunfrozen : c.frozen = false := by simpa using hfrozen
    have hfreeze : c.freeze = { c with frozen := true, cache := .empty } := by
      simp [Configuration.freeze, hunfrozen]
    have hc' : (w.configurations.modify id Configuration.freeze)[id]? = some c.freeze := by
      rw [Array.getElem?_modify, if_pos rfl, hc]
      rfl
    refine ⟨c.freeze, hc', ?_, fun hf => absurd hf hfrozen⟩
    rw [hfreeze]
    exact h.changed hunfrozen rfl rfl

end Run

/-- Whatever is done to a configuration, it goes on remembering the chains that were built, and once
frozen it keeps its advisors. -/
theorem Configuration.Keeps.step {host : Host κ σ ν} {below : Handler κ σ ν}
    {id : ConfigurationId} {known : MethodSignature → Option TypeInfo → Prop}
    {outcome : List (Advisor κ) → Bool → ChainKey → Except AopError (Chain κ)}
    {c : Configuration κ} {built : List ChainKey} {w w' : World κ σ ν} {op : ChainOperation κ}
    (h : c.Keeps host below known outcome built) (hc : w.configurations[id]? = some c)
    (hknown : ∀ q ∈ op.wants c (w.typeFor c), known q.1 q.2)
    {answer : (op.request id : Request κ σ ν).Answer}
    (hrun : (Run.answerWith host below (op.request id)).run w = some (answer, w')) :
    ∃ c', w'.configurations[id]? = some c' ∧
      c'.Keeps host below known outcome
        (built ++ op.builds (outcome c.advisors c.flags.preFiltered) c (w.typeFor c)) ∧
      (c.frozen = true → c'.frozen = true ∧ c'.advisors = c.advisors ∧ c'.flags = c.flags) := by
  have hquiet : (∀ type, op.wants c type = []) →
      (∃ c', w'.configurations[id]? = some c' ∧ c'.Keeps host below known outcome built ∧
        (c.frozen = true → c' = c)) →
      ∃ c', w'.configurations[id]? = some c' ∧
        c'.Keeps host below known outcome
          (built ++ op.builds (outcome c.advisors c.flags.preFiltered) c (w.typeFor c)) ∧
        (c.frozen = true → c'.frozen = true ∧ c'.advisors = c.advisors ∧
          c'.flags = c.flags) := by
    rintro hwants ⟨c', hc', hkeeps, hsame⟩
    refine ⟨c', hc', ?_, ?_⟩
    · simpa [ChainOperation.builds, hwants] using hkeeps
    · intro hfrozen
      rw [hsame hfrozen]
      exact ⟨hfrozen, rfl, rfl⟩
  cases op with
  | chainFor m target =>
      exact Run.chainFor_keeps h hc (hknown (m, target) List.mem_cons_self) hrun
  | precompute =>
      refine Run.precompute_keeps h hc (fun m hm => hknown (m, w.typeFor c) ?_) hrun
      exact List.mem_map.mpr ⟨m, hm, rfl⟩
  | addInterface type => exact hquiet (fun _ => rfl) (Run.addInterface_keeps h hc hrun)
  | insertAdvisor position a => exact hquiet (fun _ => rfl) (Run.insertAdvisor_keeps h hc hrun)
  | removeAdvisor position => exact hquiet (fun _ => rfl) (Run.removeAdvisor_keeps h hc hrun)
  | freeze => exact hquiet (fun _ => rfl) (Run.freeze_keeps h hc hrun)

/-- At every moment of its life a configuration remembers the chains that were built. -/
theorem Life.keeps {host : Host κ σ ν} {below : Handler κ σ ν} {id : ConfigurationId}
    {known : MethodSignature → Option TypeInfo → Prop}
    {outcome : List (Advisor κ) → Bool → ChainKey → Except AopError (Chain κ)}
    {w : World κ σ ν} {built : List ChainKey}
    (h : Life host below id known outcome w built) :
    ∃ c, w.configurations[id]? = some c ∧ c.Keeps host below known outcome built := by
  induction h with
  | @made w c found unfrozen fresh computes =>
      refine ⟨c, found, computes, fun _ => ⟨fresh, rfl⟩, ?_, ?_, ?_⟩
      · simp [fresh, ChainCache.empty]
      · simp [fresh, ChainCache.empty]
      · intro key chain hfound
        rw [fresh] at hfound
        cases hfound
  | elsewhere _ same ih =>
      obtain ⟨c, hc, hkeeps⟩ := ih
      exact ⟨c, same.trans hc, hkeeps⟩
  | did _ found asked ran ih =>
      obtain ⟨c, hc, hkeeps⟩ := ih
      obtain rfl := Option.some.inj (hc.symm.trans found)
      obtain ⟨c', hc', hkeeps', _⟩ := hkeeps.step found asked ran
      exact ⟨c', hc', hkeeps'⟩

/-- What a configuration has lived through, and one thing more that comes to an end. -/
theorem Life.then {host : Host κ σ ν} {below : Handler κ σ ν} {id : ConfigurationId}
    {known : MethodSignature → Option TypeInfo → Prop}
    {outcome : List (Advisor κ) → Bool → ChainKey → Except AopError (Chain κ)}
    {w : World κ σ ν} {built : List ChainKey} {c : Configuration κ}
    (before : Life host below id known outcome w built) (op : ChainOperation κ)
    (found : w.configurations[id]? = some c)
    (asked : ∀ q ∈ op.wants c (w.typeFor c), known q.1 q.2)
    (ends : ((Run.answerWith host below (op.request id)).run w).isSome = true) :
    Life host below id known outcome ((Run.answerWith host below (op.request id)).leaves w)
      (built ++ op.builds (outcome c.advisors c.flags.preFiltered) c (w.typeFor c)) := by
  obtain ⟨⟨answer, w'⟩, hended⟩ := Option.isSome_iff_exists.mp ends
  have hleaves : (Run.answerWith host below (op.request id)).leaves w = w' := by
    rw [Run.leaves, hended]
    rfl
  rw [hleaves]
  exact .did before found asked hended

theorem ChainKey.of_eq_iff {m m' : MethodSignature} {target target' : Option TypeInfo} :
    ChainKey.of m target = ChainKey.of m' target' ↔
      m.declaringType.id = m'.declaringType.id ∧ m.name = m'.name ∧
        m.parameterTypes = m'.parameterTypes ∧
        target.map (·.id) = target'.map (·.id) := by
  simp [ChainKey.of, MethodSignature.key, and_assoc]

namespace Run

/-- The chains that a configuration remembers cannot be told from chains built anew.  Over its whole
life a request for a chain answers what building it from the advisors in force would, and what fails
to be built leaves everything remembered as it was.  Nothing is remembered before freezing; after it
there is one entry for each key for which building has succeeded since, keys being the same exactly
if the declaring type, the name, the parameter types and the target type are. -/
theorem remembered_chains_transparent (host : Host κ σ ν) (depth : Nat) (id : ConfigurationId)
    (known : MethodSignature → Option TypeInfo → Prop)
    (outcome : List (Advisor κ) → Bool → ChainKey → Except AopError (Chain κ))
    (w : World κ σ ν) (built : List ChainKey)
    (life : Life host (answer host depth) id known outcome w built) :
    (∃ c, w.configurations[id]? = some c ∧
      (c.frozen = false → c.cache.entries = []) ∧
      (c.frozen = true → (c.cache.entries.map Prod.fst).Perm built.dedup) ∧
      (∀ m target, known m target → ∃ result v v',
        (chainFor host (answer host depth) id m target).run w = some (result, v) ∧
          (buildChain host (answer host depth) c m target).run w = some (result, v') ∧
          (∀ e, result = .error e → v.configurations[id]? = some c) ∧
          (c.frozen = true → ∀ chain, result = .ok chain → ∃ c',
            v.configurations[id]? = some c' ∧ c'.cache.find? (.of m target) = some chain ∧
              ∀ other, other ≠ .of m target →
                c'.cache.find? other = c.cache.find? other)) ∧
      (c.frozen = true → ∀ (op : ChainOperation κ) (w' : World κ σ ν)
        (reply : (op.request id : Request κ σ ν).Answer),
        (∀ q ∈ op.wants c (w.typeFor c), known q.1 q.2) →
        (answerWith host (answer host depth) (op.request id)).run w = some (reply, w') →
        ∃ c', w'.configurations[id]? = some c' ∧ c'.frozen = true ∧
          c'.advisors = c.advisors)) ∧
      ∀ (m m' : MethodSignature) (target target' : Option TypeInfo),
        ChainKey.of m target = ChainKey.of m' target' ↔
          m.declaringType.id = m'.declaringType.id ∧ m.name = m'.name ∧
            m.parameterTypes = m'.parameterTypes ∧
            target.map (·.id) = target'.map (·.id) := by
  obtain ⟨c, hc, hkeeps⟩ := life.keeps
  refine ⟨⟨c, hc, ?_, ?_, ?_, ?_⟩, fun m m' target target' => ChainKey.of_eq_iff⟩
  · intro hunfrozen
    rw [(hkeeps.unfrozen hunfrozen).1]
    rfl
  · intro _
    refine (List.perm_ext_iff_of_nodup hkeeps.nodup built.nodup_dedup).mpr fun key => ?_
    rw [hkeeps.mem_iff, List.mem_dedup]
  · intro m target hknown
    obtain ⟨v, hv, hv'⟩ := chainFor_run hkeeps hc hknown
    obtain ⟨u, hu, _⟩ := hkeeps.computes c rfl m target hknown w
    refine ⟨_, v, u, hv, hu, ?_, ?_⟩
    · intro e he
      rw [hv', he]
      split
      · rfl
      · rfl
    · intro hfrozen chain hchain
      rw [if_pos hfrozen, hchain] at hv'
      refine ⟨_, hv', ?_, ?_⟩
      · rw [Configuration.learn, Configuration.remember, Configuration.find?_insertNew_self]
        rcases hfound : c.cache.find? (.of m target) with _ | found
        · rfl
        · cases (hkeeps.right _ _ hfound).symm.trans hchain
          rfl
      · intro other hne
        exact Assoc.get?_putNew_of_ne chain c.cache.entries hne
  · intro hfrozen op w' reply hknown hrun
    obtain ⟨c', hc', _, hsame⟩ := hkeeps.step hc hknown hrun
    obtain ⟨hfrozen', hadvisors, _⟩ := hsame hfrozen
    exact ⟨c', hc', hfrozen', hadvisors⟩

section Keeping

def keepingMethod : MethodSignature := { declaringType := .root, name := "run" }

def strangeMethod : MethodSignature := { declaringType := .root, name := "stray" }

/-- Advice for one of these methods, in a form that no adapter understands. -/
def strangeAdvisor : Advisor Unit :=
  .pointcut (.ofMatcher (.ofTest fun m _ => m.name == "stray"))
    ⟨"strange", .custom .around (.count 0)⟩

def keepingConfiguration : Configuration Unit :=
  .initial {} 0 [keepingMethod, strangeMethod] (.standard .standard)

def keepingWorld : World Unit Unit Unit :=
  { World.initial () with configurations := #[keepingConfiguration] }

def keepingKnown (m : MethodSignature) (target : Option TypeInfo) : Prop :=
  (m = keepingMethod ∨ m = strangeMethod) ∧ target = none

def keepingOutcome (advisors : List (Advisor Unit)) (preFiltered : Bool) (key : ChainKey) :
    Except AopError (Chain Unit) :=
  let m := if key = .of strangeMethod none then strangeMethod else keepingMethod
  ((Chain.build .standard advisors preFiltered m none).run []).1

theorem keeping_computes : keepingConfiguration.chainFactory.Computes
    (Host.idle : Host Unit Unit Unit) (answer Host.idle 0) keepingKnown keepingOutcome := by
  apply standard_computes
  rintro advisors preFiltered m target ⟨rfl | rfl, rfl⟩
  · have hother : ChainKey.of keepingMethod none ≠ .of strangeMethod none := by decide
    rw [keepingOutcome, if_neg hother]
  · rw [keepingOutcome, if_pos rfl]

/-- The advice is put in before freezing.  Then a chain is wanted twice, another cannot be built, all
are computed as far as they can be, and taking the advice out again is refused. -/
theorem keeping_life : ∃ (w : World Unit Unit Unit) (built : List ChainKey)
    (c : Configuration Unit),
    Life Host.idle (answer Host.idle 0) 0 keepingKnown keepingOutcome w built ∧
      built = List.replicate 3 (.of keepingMethod none) ∧ w.configurations[0]? = some c ∧
      c.frozen = true ∧ c.advisors = [strangeAdvisor] ∧
      c.chainFactory = .standard .standard := by
  have hkept : ∀ q ∈ [(keepingMethod, (none : Option TypeInfo))], keepingKnown q.1 q.2 :=
    List.forall_mem_singleton.mpr ⟨.inl rfl, rfl⟩
  have hstrange : ∀ q ∈ [(strangeMethod, (none : Option TypeInfo))], keepingKnown q.1 q.2 :=
    List.forall_mem_singleton.mpr ⟨.inr rfl, rfl⟩
  have hmade : Life Host.idle (answer Host.idle 0) 0 keepingKnown keepingOutcome keepingWorld [] :=
    .made rfl rfl rfl keeping_computes
  have hfrozen := (hmade.then (.insertAdvisor none strangeAdvisor) rfl nofun
    (by decide +kernel)).then .freeze rfl nofun (by decide +kernel)
  have hasked := (hfrozen.then (.chainFor keepingMethod none) rfl hkept (by decide +kernel)).then
    (.chainFor keepingMethod none) rfl hkept (by decide +kernel)
  have hfailed := hasked.then (.chainFor strangeMethod none) rfl hstrange (by decide +kernel)
  have hcomputed := hfailed.then .precompute rfl
    (List.forall_mem_cons.mpr ⟨⟨.inl rfl, rfl⟩, hstrange⟩) (by decide +kernel)
  have hrefused := hcomputed.then (.removeAdvisor 0) rfl nofun (by decide +kernel)
  exact ⟨_, _, _, hrefused, by decide +kernel, rfl, rfl, rfl, rfl⟩

/-- After all that there is one entry, for the method whose chain was built three times; the other
method's chain still cannot be built, and trying to changes nothing. -/
theorem remembered_chains_transparent_keeping :
    ∃ (w : World Unit Unit Unit) (c : Configuration Unit), w.configurations[0]? = some c ∧
      c.frozen = true ∧ c.advisors = [strangeAdvisor] ∧
      (c.cache.entries.map Prod.fst).Perm [ChainKey.of keepingMethod none] ∧
      ∃ e v, (chainFor Host.idle (answer Host.idle 0) 0 strangeMethod none).run w =
        some (.error e, v) ∧ v.configurations[0]? = some c := by
  obtain ⟨w, built, c, hlife, hbuilt, hc, hfrozen, hadvisors, hfactory⟩ := keeping_life
  obtain ⟨⟨c', hc', _, hkeys, hanswers, _⟩, _⟩ :=
    remembered_chains_transparent Host.idle 0 0 _ _ w built hlife
  obtain rfl := Option.some.inj (hc'.symm.trans hc)
  have hdedup : built.dedup = [ChainKey.of keepingMethod none] := by
    rw [hbuilt, List.replicate_dedup (by decide)]
  obtain ⟨result, v, v', hanswer, hbuild, hkept, _⟩ := hanswers strangeMethod none ⟨.inr rfl, rfl⟩
  obtain ⟨_, hfails, _⟩ := buildChain_of_standard Host.idle (answer Host.idle 0) hfactory
    strangeMethod none w
  cases hfails.symm.trans hbuild
  obtain ⟨e, herror⟩ : ∃ e, ((Chain.build .standard c'.advisors c'.flags.preFiltered strangeMethod
      none).run []).1 = .error e := by
    rw [hadvisors]
    cases c'.flags.preFiltered with
    | false => exact ⟨_, rfl⟩
    | true => exact ⟨_, rfl⟩
  rw [herror] at hanswer
  exact ⟨w, c', hc, hfrozen, hadvisors, hdedup ▸ hkeys hfrozen, e, v, hanswer, hkept e herror⟩

end Keeping

end Run

end Weaving
