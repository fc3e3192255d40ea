import Weaving.Run.Chains

/-
What can become of a configuration.  `Configuration.Step` lists the changes it can undergo.  A
configuration at a later time has the flags, the source and the way of building chains it was made
with; once frozen it also keeps its advisors, its contracts and every chain it remembers.
-/
namespace Weaving

variable {κ σ ν : Type}

namespace Configuration

/-- A chain that building can give for a method on a target type, whatever user code takes part. -/
def Builds (host : Host κ σ ν) (c : Configuration κ) (m : MethodSignature)
    (target : Option TypeInfo) (chain : Chain κ) : Prop :=
  ∃ (below : Handler κ σ ν) (w w' : World κ σ ν),
    (Run.buildChain host below c m target).run w = some (.ok chain, w')

/-- A configuration that remembers a chain, if it remembers no other for the same key. -/
def remember (c : Configuration κ) (key : ChainKey) (chain : Chain κ) : Configuration κ :=
  { c with cache := c.cache.insertNew key chain }

/-- The changes that a configuration can undergo. -/
inductive Step (host : Host κ σ ν) (c : Configuration κ) : Configuration κ → Prop where
  | exposed {type : TypeInfo} {c' : Configuration κ} (done : c.addInterface type = .ok c') :
      Step host c c'
  | inserted {position : Option Nat} {a : Advisor κ} {c' : Configuration κ} {line : LogLine}
      (done : c.insertAdvisor position a = .ok (c', line)) : Step host c c'
  | removed {position : Nat} {a : Advisor κ} {c' : Configuration κ}
      (done : c.removeAdvisor position = .ok (a, c')) : Step host c c'
  | froze : Step host c c.freeze
  | remembered {m : MethodSignature} {target : Option TypeInfo} {chain : Chain κ}
      (frozen : c.frozen = true) (built : c.Builds host m target chain) :
      Step host c (c.remember (.of m target) chain)

/-- A configuration as it may be at a later time. -/
structure Later (c c' : Configuration κ) : Prop where
  flags : c'.flags = c.flags
  source : c'.source = c.source
  methods : c'.methods = c.methods
  chainFactory : c'.chainFactory = c.chainFactory
  frozen : c.frozen = true → c'.frozen = true
  advisors : c.frozen = true → c'.advisors = c.advisors
  interfaces : c.frozen = true → c'.interfaces = c.interfaces
  cache : c.frozen = true → ∀ key chain,
    c.cache.find? key = some chain → c'.cache.find? key = some chain

theorem Later.refl (c : Configuration κ) : c.Later c :=
  ⟨rfl, rfl, rfl, rfl, id, fun _ => rfl, fun _ => rfl, fun _ _ _ => id⟩

theorem Later.trans {a b c : Configuration κ} (hab : a.Later b) (hbc : b.Later c) :
    a.Later c where
  flags := hbc.flags.trans hab.flags
  source := hbc.source.trans hab.source
  methods := hbc.methods.trans hab.methods
  chainFactory := hbc.chainFactory.trans hab.chainFactory
  frozen h := hbc.frozen (hab.frozen h)
  advisors h := (hbc.advisors (hab.frozen h)).trans (hab.advisors h)
  interfaces h := (hbc.interfaces (hab.frozen h)).trans (hab.interfaces h)
  cache h key chain hfound := hbc.cache (hab.frozen h) key chain (hab.cache h key chain hfound)

/-- While a configuration may still change, later ones share only what never changes. -/
theorem later_of_mutable {c c' : Configuration κ} (hmutable : c.frozen = false)
    (flags : c'.flags = c.flags) (source : c'.source = c.source)
    (methods : c'.methods = c.methods) (chainFactory : c'.chainFactory = c.chainFactory) :
    c.Later c' := by
  have habsurd : ¬ c.frozen = true := by simp [hmutable]
  exact ⟨flags, source, methods, chainFactory, fun h => absurd h habsurd,
    fun h => absurd h habsurd, fun h => absurd h habsurd, fun h => absurd h habsurd⟩

/-- A frozen configuration goes on building as it did. -/
theorem Later.buildChain_eq {c c' : Configuration κ} (h : c.Later c') (hfrozen : c.frozen = true)
    (host : Host κ σ ν) (below : Handler κ σ ν) (m : MethodSignature)
    (target : Option TypeInfo) :
    Run.buildChain host below c' m target = Run.buildChain host below c m target := by
  simp only [Run.buildChain]
  rw [h.chainFactory, h.advisors hfrozen, h.flags]

theorem Later.builds {host : Host κ σ ν} {c c' : Configuration κ} (h : c.Later c')
    (hfrozen : c.frozen = true) {m : MethodSignature} {target : Option TypeInfo}
    {chain : Chain κ} (hbuilds : c.Builds host m target chain) :
    c'.Builds host m target chain := by
  obtain ⟨below, w, w', hbuilt⟩ := hbuilds
  exact ⟨below, w, w', h.buildChain_eq hfrozen host below m target ▸ hbuilt⟩

theorem ensureMutable_eq_ok {c : Configuration κ} {change : String}
    (h : c.ensureMutable change = .ok ()) : c.frozen = false := by
  cases hfrozen : c.frozen with
  | false => rfl
  | true => simp [ensureMutable, hfrozen] at h

theorem addInterface_eq_ok {c c' : Configuration κ} {type : TypeInfo}
    (h : c.addInterface type = .ok c') :
    c.frozen = false ∧ c' = { c with interfaces := TypeInfo.pushNew c.interfaces type } := by
  rw [addInterface] at h
  cases hmutable : c.ensureMutable "add interface" with
  | error e =>
      rw [hmutable] at h
      cases h
  | ok _ =>
      rw [hmutable] at h
      cases h
      exact ⟨ensureMutable_eq_ok hmutable, rfl⟩

theorem insertAdvisor_eq_ok {c c' : Configuration κ} {position : Option Nat} {a : Advisor κ}
    {line : LogLine} (h : c.insertAdvisor position a = .ok (c', line)) :
    c.frozen = false ∧
      c' = { c.exposeAll a.interfaces with
        advisors := c.advisors.take (position.getD c.advisors.length) ++
          a :: c.advisors.drop (position.getD c.advisors.length) } := by
  rw [insertAdvisor] at h
  cases hmutable : c.ensureMutable "add advisor" with
  | error e =>
      rw [hmutable] at h
      cases h
  | ok _ =>
      rw [hmutable] at h
      change (if _ then _ else _) = _ at h
      split at h
      · cases h
      · cases h
        exact ⟨ensureMutable_eq_ok hmutable, rfl⟩

theorem removeAdvisor_eq_ok {c c' : Configuration κ} {position : Nat} {a : Advisor κ}
    (h : c.removeAdvisor position = .ok (a, c')) :
    c.frozen = false ∧ c.advisors[position]? = some a ∧
      c' = { c with advisors := c.advisors.eraseIdx position } := by
  rw [removeAdvisor] at h
  cases hmutable : c.ensureMutable "remove advisor" with
  | error e =>
      rw [hmutable] at h
      cases h
  | ok _ =>
      rw [hmutable] at h
      cases hfound : c.advisors[position]? with
      | none =>
          rw [hfound] at h
          cases h
      | some b =>
          rw [hfound] at h
          cases h
          exact ⟨ensureMutable_eq_ok hmutable, rfl, rfl⟩

theorem find?_insertNew_self (cache : ChainCache κ) (key : ChainKey) (chain : Chain κ) :
    (cache.insertNew key chain).find? key = some ((cache.find? key).getD chain) :=
  Assoc.get?_putNew_self key chain cache.entries

/-- A remembered chain stays in place of any later one for its key. -/
theorem find?_insertNew {cache : ChainCache κ} {key other : ChainKey} {chain found : Chain κ}
    (h : cache.find? key = some found) : (cache.insertNew other chain).find? key = some found := by
  by_cases hkey : key = other
  · subst hkey
    rw [find?_insertNew_self, h]
    rfl
  · exact (Assoc.get?_putNew_of_ne chain cache.entries hkey).trans h

/-- A configuration that is to remember a chain remembers it only where it had none. -/
theorem find?_remember_eq_some {c : Configuration κ} {key other : ChainKey} {chain found : Chain κ}
    (h : (c.remember key chain).cache.find? other = some found) :
    c.cache.find? other = some found ∨ other = key ∧ found = chain := by
  by_cases hkey : other = key
  · subst hkey
    have hself := (find?_insertNew_self c.cache other chain).symm.trans h
    rcases hold : c.cache.find? other with _ | old
    · rw [hold] at hself
      exact .inr ⟨rfl, (Option.some.inj hself).symm⟩
    · rw [hold] at hself
      exact .inl hself
  · exact .inl ((Assoc.get?_putNew_of_ne chain c.cache.entries hkey).symm.trans h)

theorem Step.later {host : Host κ σ ν} {c c' : Configuration κ} (h : c.Step host c') :
    c.Later c' := by
  cases h with
  | exposed done =>
      obtain ⟨hmutable, rfl⟩ := addInterface_eq_ok done
      exact later_of_mutable hmutable rfl rfl rfl rfl
  | inserted done =>
      obtain ⟨hmutable, rfl⟩ := insertAdvisor_eq_ok done
      exact later_of_mutable hmutable rfl rfl rfl rfl
  | removed done =>
      obtain ⟨hmutable, -, rfl⟩ := removeAdvisor_eq_ok done
      exact later_of_mutable hmutable rfl rfl rfl rfl
  | froze =>
      cases hfrozen : c.frozen with
      | true =>
          have hsame : c.freeze = c := by simp [freeze, hfrozen]
          rw [hsame]
          exact Later.refl c
      | false =>
          have hfreeze : c.freeze = { c with frozen := true, cache := .empty } := by
            simp [freeze, hfrozen]
          rw [hfreeze]
          exact later_of_mutable hfrozen rfl rfl rfl rfl
  | remembered frozen built =>
      exact ⟨rfl, rfl, rfl, rfl, id, fun _ => rfl, fun _ => rfl,
        fun _ _ _ hfound => find?_insertNew hfound⟩

end Configuration

end Weaving
