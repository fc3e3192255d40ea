import Weaving.Proofs.Turns

/-
Equality of proxies as an equivalence.  Whether two proxies are equal depends on what their
configurations show: the types they expose, the type and name of the advice of each advisor, and the
identity of the source.  A change to a configuration may change the first two, so equal proxies need
not stay equal.  The third never changes, and the hash depends on it alone.
-/
namespace Weaving

variable {κ σ ν : Type} {host : Host κ σ ν}

/-- Lists agree one by one when what is compared of their elements is the same list. -/
theorem agreeOneByOne_iff {α β : Type} {agree : α → α → Bool} {key : α → β}
    (h : ∀ a b, agree a b = true ↔ key a = key b) {as bs : List α} :
    agreeOneByOne agree as bs = true ↔ as.map key = bs.map key := by
  induction as generalizing bs with
  | nil => cases bs <;> simp [agreeOneByOne]
  | cons a as ih =>
      cases bs with
      | nil => simp [agreeOneByOne]
      | cons b bs => simp [agreeOneByOne, h, ih]

/-- A source for which no user has chosen what it is known by. -/
def Source.KeepsIdentity (source : Source κ) : Prop :=
  ∀ about code, source = .custom about code → about.identity = none

/-- Such a source is known by itself or by the object that it always gives. -/
theorem Source.KeepsIdentity.cases {source : Source κ} (h : source.KeepsIdentity) :
    source.givenIdentity = none ∨ ∃ target type, source = .singleton target type := by
  cases source with
  | singleton target type => exact .inr ⟨target, type, rfl⟩
  | custom about code => exact .inl (h about code rfl)
  | _ => exact .inl rfl

namespace Identity

/-- Unless their users say otherwise, sources are the same if they are one source, or if both always
give the same object. -/
theorem of_eq_iff {id id' : SourceId} {source source' : Source κ} (hid : id = id' → source = source')
    (h : source.KeepsIdentity) (h' : source'.KeepsIdentity) :
    of id source = of id' source' ↔ id = id' ∨ ∃ target type type',
      source = .singleton target type ∧ source' = .singleton target type' := by
  constructor
  · intro hsame
    rcases h.cases with hown | ⟨target, type, rfl⟩
    · rcases h'.cases with hown' | ⟨target', type', rfl⟩
      · rw [of, of, hown, hown'] at hsame
        exact .inl (Identity.ofSource.inj hsame)
      · rw [of, hown] at hsame
        cases hsame
    · rcases h'.cases with hown' | ⟨target', type', rfl⟩
      · rw [of, of, hown'] at hsame
        cases hsame
      · obtain rfl : target = target' := Identity.ofTarget.inj hsame
        exact .inr ⟨target, type, type', rfl, rfl⟩
  · rintro (hsame | ⟨target, type, type', rfl, rfl⟩)
    · rw [hsame, hid hsame]
    · rfl

/-- What happens to a pool makes no other source of it. -/
@[simp] theorem of_mapPool (id : SourceId) (source : Source κ) (change : Pool → Pool) :
    of id (source.mapPool change) = of id source := by
  cases source <;> rfl

end Identity

/-- What a proxy shows of its configuration when it is compared. -/
structure Profile where
  /-- The types exposed, in order. -/
  interfaces : List TypeId
  /-- The type and name of each advisor's advice, in order. -/
  advisors : List (AdviceType × String)
  /-- The identity of the source. -/
  identity : Option Identity
  deriving DecidableEq

namespace World

variable {w w' : World κ σ ν} {p q : ProxyId} {shown : Profile}

/-- What a configuration shows. -/
def profile (w : World κ σ ν) (c : Configuration κ) : Profile where
  interfaces := c.interfaces.map (·.id)
  advisors := c.advisors.map fun a => (a.advice.type, a.advice.name)
  identity := w.identity? c.source

/-- What a proxy shows. -/
def profile? (w : World κ σ ν) (p : ProxyId) : Option Profile := (w.configurationOf? p).map w.profile

theorem configurationsAgree_iff {c c' : Configuration κ} :
    w.configurationsAgree c c' = true ↔ w.profile c = w.profile c' := by
  have htypes : ∀ a b : TypeInfo, (a == b) = true ↔ a.id = b.id := fun a _ => beq_iff_eq (a := a.id)
  have hadvisors : ∀ a b : Advisor κ, a.agrees b = true ↔
      (a.advice.type, a.advice.name) = (b.advice.type, b.advice.name) := by
    simp [Advisor.agrees]
  simp only [configurationsAgree, Bool.and_eq_true, agreeOneByOne_iff htypes,
    agreeOneByOne_iff hadvisors, decide_eq_true_eq, profile, Profile.mk.injEq, and_assoc]

/-- The parts of a proxy settle what it shows. -/
theorem profile?_of_parts {proxy : Proxy} {c : Configuration κ} {source : Source κ}
    (h : w.parts? p = some (proxy, c, source)) :
    w.profile? p = some ⟨c.interfaces.map (·.id),
      c.advisors.map fun a => (a.advice.type, a.advice.name), some (Identity.of c.source source)⟩ := by
  obtain ⟨hproxy, hc, hsource⟩ := parts?_eq_some.mp h
  simp [profile?, configurationOf?, hproxy, hc, profile, identity?, hsource]

/-- A proxy that shows something has a configuration, and shows what that shows. -/
theorem profile?_eq_some : w.profile? p = some shown ↔ ∃ proxy c,
    w.proxies[p]? = some proxy ∧ w.configurations[proxy.configuration]? = some c ∧
      w.profile c = shown := by
  simp only [profile?, configurationOf?, Option.map_eq_some_iff, Option.bind_eq_some_iff]
  constructor
  · rintro ⟨c, ⟨proxy, hproxy, hc⟩, hprofile⟩
    exact ⟨proxy, c, hproxy, hc, hprofile⟩
  · rintro ⟨proxy, c, hproxy, hc, hprofile⟩
    exact ⟨c, ⟨proxy, hproxy, hc⟩, hprofile⟩

/-- Proxies that show the same are equal. -/
theorem proxiesEqual_of_profile (hp : w.profile? p = some shown)
    (hq : w.profile? q = some shown) : w.proxiesEqual p q = true := by
  obtain ⟨proxy, c, hproxy, hc, hprofile⟩ := profile?_eq_some.mp hp
  obtain ⟨other, c', hother, hc', hprofile'⟩ := profile?_eq_some.mp hq
  have hagree : w.configurationsAgree c c' = true :=
    configurationsAgree_iff.mpr (hprofile.trans hprofile'.symm)
  simp [proxiesEqual, configurationsEqual, hproxy, hother, hc, hc', hagree]

/-- Every proxy of a reachable world has its parts. -/
theorem Reachable.parts (hw : Reachable host w) {proxy : Proxy} (h : w.proxies[p]? = some proxy) :
    ∃ c source, w.parts? p = some (proxy, c, source) :=
  (hw.wellFormed.fits p proxy h).parts? h

/-- Proxies are equal if they are one proxy or show the same. -/
theorem Reachable.proxiesEqual_iff (hw : Reachable host w) : w.proxiesEqual p q = true ↔
    p = q ∨ ∃ shown, w.profile? p = some shown ∧ w.profile? q = some shown := by
  constructor
  · intro hequal
    rw [proxiesEqual, Bool.or_eq_true, decide_eq_true_eq] at hequal
    refine hequal.imp_right fun hequal => ?_
    cases hp : w.proxies[p]? with
    | none => simp [hp] at hequal
    | some proxy =>
        cases hq : w.proxies[q]? with
        | none => simp [hp, hq] at hequal
        | some other =>
            obtain ⟨c, source, hparts⟩ := hw.parts hp
            obtain ⟨c', source', hparts'⟩ := hw.parts hq
            have hc := (parts?_eq_some.mp hparts).2.1
            have hc' := (parts?_eq_some.mp hparts').2.1
            simp only [hp, hq, configurationsEqual, hc, hc', Bool.or_eq_true,
              decide_eq_true_eq] at hequal
            have hprofiles : w.profile c = w.profile c' := by
              rcases hequal with hone | hagree
              · rw [hone] at hc
                rw [Option.some.inj (hc.symm.trans hc')]
              · exact configurationsAgree_iff.mp hagree
            exact ⟨w.profile c, profile?_eq_some.mpr ⟨proxy, c, hp, hc, rfl⟩,
              profile?_eq_some.mpr ⟨other, c', hq, hc', hprofiles.symm⟩⟩
  · rintro (rfl | ⟨shown, hp, hq⟩)
    · simp [proxiesEqual]
    · exact proxiesEqual_of_profile hp hq

theorem Reachable.proxiesEqual_equivalence (hw : Reachable host w) :
    Equivalence fun p q => w.proxiesEqual p q = true where
  refl p := hw.proxiesEqual_iff.mpr (.inl rfl)
  symm h := by
    rcases hw.proxiesEqual_iff.mp h with rfl | ⟨shown, hp, hq⟩
    · exact h
    · exact proxiesEqual_of_profile hq hp
  trans h h' := by
    rcases hw.proxiesEqual_iff.mp h with rfl | ⟨shown, hp, hq⟩
    · exact h'
    rcases hw.proxiesEqual_iff.mp h' with rfl | ⟨shown', hq', hr⟩
    · exact h
    · obtain rfl : shown = shown' := Option.some.inj (hq.symm.trans hq')
      exact proxiesEqual_of_profile hp hr

/-- The hash is that of the identity shown. -/
theorem proxyHash_of_profile (h : w.profile? p = some shown) :
    w.proxyHash p = (shown.identity.map hashOf).getD (hashSeed * 13) := by
  obtain ⟨c, hc, rfl⟩ := Option.map_eq_some_iff.mp h
  rw [proxyHash, hc, Option.bind_some, profile]
  cases w.identity? c.source <;> rfl

/-- Whatever becomes of the parts of a proxy, its hash stays. -/
theorem Later.proxyHash (h : w.Later w') {proxy : Proxy} {c : Configuration κ} {source : Source κ}
    (hparts : w.parts? p = some (proxy, c, source)) : w'.proxyHash p = w.proxyHash p := by
  obtain ⟨c', change, hparts', hlater⟩ := h.parts hparts
  rw [proxyHash_of_profile (profile?_of_parts hparts'),
    proxyHash_of_profile (profile?_of_parts hparts), hlater.source, Identity.of_mapPool]

/-- In every reachable world, whatever was done to configurations, equality of proxies is an
equivalence.  No proxy equals anything but a proxy; two proxies are equal just when they expose the
same types in the same order, their advice agrees in types and names in order, and their sources have
the same identity: unless users choose identities for sources of their own, they have one source or
sources that always give the same object.  Equal proxies have the same hash, and a proxy has the same
hash in every later world. -/
theorem proxy_equality (host : Host κ σ ν) (w : World κ σ ν) (hw : Reachable host w) :
    Equivalence (fun p q => w.proxiesEqual p q = true) ∧
    (∀ p other, w.proxyEquals p other = true ↔
      ∃ q, other = some (.proxy q) ∧ w.proxiesEqual p q = true) ∧
    (∀ p q proxy proxy', w.proxies[p]? = some proxy → w.proxies[q]? = some proxy' → p ≠ q →
      ∃ c source c' source', w.parts? p = some (proxy, c, source) ∧
        w.parts? q = some (proxy', c', source') ∧
        (w.proxiesEqual p q = true ↔
          c.interfaces.map (·.id) = c'.interfaces.map (·.id) ∧
          c.advisors.map (fun a => (a.advice.type, a.advice.name)) =
            c'.advisors.map (fun a => (a.advice.type, a.advice.name)) ∧
          Identity.of c.source source = Identity.of c'.source source')) ∧
    (∀ id id' source source', w.sources[id]? = some source → w.sources[id']? = some source' →
      source.KeepsIdentity → source'.KeepsIdentity →
      (Identity.of id source = Identity.of id' source' ↔ id = id' ∨ ∃ target type type',
        source = .singleton target type ∧ source' = .singleton target type')) ∧
    (∀ p q, w.proxiesEqual p q = true → w.proxyHash p = w.proxyHash q) ∧
    ∀ w', w.Leads host (fun _ => True) w' → ∀ p proxy, w.proxies[p]? = some proxy →
      w'.proxyHash p = w.proxyHash p := by
  refine ⟨hw.proxiesEqual_equivalence, fun p other => ?_, fun p q proxy proxy' hp hq hne => ?_,
    fun id id' source source' hsource hsource' => ?_, fun p q hequal => ?_,
    fun w' hleads p proxy hp => ?_⟩
  · rcases other with _ | other
    · simp [proxyEquals]
    · cases other <;> simp [proxyEquals]
  · obtain ⟨c, source, hparts⟩ := hw.parts hp
    obtain ⟨c', source', hparts'⟩ := hw.parts hq
    refine ⟨c, source, c', source', hparts, hparts', ?_⟩
    rw [hw.proxiesEqual_iff, profile?_of_parts hparts, profile?_of_parts hparts']
    simp [hne, eq_comm]
  · refine Identity.of_eq_iff fun hone => ?_
    rw [hone] at hsource
    exact Option.some.inj (hsource.symm.trans hsource')
  · rcases hw.proxiesEqual_iff.mp hequal with rfl | ⟨shown, hp, hq⟩
    · rfl
    · rw [proxyHash_of_profile hp, proxyHash_of_profile hq]
  · obtain ⟨c, source, hparts⟩ := hw.parts hp
    exact hleads.later.proxyHash hparts

end World

namespace Run

section Copies

def copyType : TypeInfo := ⟨2, "Copy", [], false, false, false⟩

/-- A custom source that is known by the target it wraps. -/
def copyWrapper (target : TargetId) : CustomSource :=
  { name := "wrapper", type := some copyType, isStatic := true, identity := some (.ofTarget target) }

/-- One target has two sources, and a third one that is known by it too. -/
def copySetup : Code Unit Unit Unit Unit := do
  let target ← Code.ask (.newTarget copyType ())
  let _ ← Code.ask (.newSource (.singleton target copyType))
  let _ ← Code.ask (.newSource (.singleton target copyType))
  let _ ← Code.ask (.newSource (.custom (copyWrapper target) ()))

def copyFactory (source : SourceId) : ProxyFactory Unit :=
  { source := some source
    advisors := [.unconditional ⟨"stamp", .around ⟨none, .scripted ()⟩⟩] }

/-- Each source has a proxy. -/
def copiesMade : Code Unit Unit Unit Unit := do
  copySetup
  let _ ← Code.ask (.makeProxy (copyFactory 0))
  let _ ← Code.ask (.makeProxy (copyFactory 1))
  let _ ← Code.ask (.makeProxy (copyFactory 2))

def copyWorld : World Unit Unit Unit := worldAfter Host.idle 1 copiesMade (.initial ())

/-- The first proxy loses its advisor and is frozen. -/
def copyChanged : Code Unit Unit Unit Unit := do
  let _ ← Code.ask (.removeAdvisor 0 0)
  Code.ask (.freeze 0)

def alteredWorld : World Unit Unit Unit := worldAfter Host.idle 1 copyChanged copyWorld

/-- Proxies of sources that are known by one target are equal.  When one of them changes it no longer
equals the others, and its hash is still the same. -/
theorem proxy_equality_copies :
    copyWorld.proxiesEqual 0 1 = true ∧ copyWorld.proxiesEqual 1 2 = true ∧
      copyWorld.proxyHash 0 = copyWorld.proxyHash 2 ∧ alteredWorld.proxiesEqual 0 1 = false ∧
      alteredWorld.proxyHash 0 = copyWorld.proxyHash 0 := by
  have hcopies : World.Reachable Host.idle copyWorld := worldAfter_reachable (.initial ()) 1 copiesMade
  have haltered : World.Reachable Host.idle alteredWorld := worldAfter_reachable hcopies 1 copyChanged
  have hleads : copyWorld.Leads Host.idle (fun _ => True) alteredWorld :=
    worldAfter_leads Host.idle 1 copyChanged copyWorld
  have hmade : ∀ p : Fin 3, ∃ proxy, copyWorld.proxies[p.val]? = some proxy := by
    refine fun p => Option.isSome_iff_exists.mp ?_
    revert p
    decide +kernel
  obtain ⟨first, hfirst⟩ := hmade 0
  obtain ⟨second, hsecond⟩ := hmade 1
  obtain ⟨third, hthird⟩ := hmade 2
  obtain ⟨hequivalence, -, hcriterion, -, hhash, hlater⟩ :=
    World.proxy_equality Host.idle copyWorld hcopies
  obtain ⟨-, -, hcriterion', -⟩ := World.proxy_equality Host.idle alteredWorld haltered
  have hequal : ∀ {p q : ProxyId} {proxy proxy' : Proxy}, copyWorld.proxies[p]? = some proxy →
      copyWorld.proxies[q]? = some proxy' → p ≠ q → copyWorld.profile? p = copyWorld.profile? q →
      copyWorld.proxiesEqual p q = true := by
    intro p q proxy proxy' hp hq hne hshown
    obtain ⟨c, source, c', source', hparts, hparts', hiff⟩ := hcriterion p q proxy proxy' hp hq hne
    rw [World.profile?_of_parts hparts, World.profile?_of_parts hparts'] at hshown
    simp only [Option.some.injEq, Profile.mk.injEq] at hshown
    exact hiff.mpr hshown
  have hfirsts := hequal hfirst hsecond (by decide) (by decide +kernel)
  have hlasts := hequal hsecond hthird (by decide) (by decide +kernel)
  refine ⟨hfirsts, hlasts, hhash 0 2 (hequivalence.trans hfirsts hlasts),
    Bool.eq_false_iff.mpr fun hstill => ?_, hlater alteredWorld hleads 0 first hfirst⟩
  obtain ⟨c, source, c', source', hparts, hparts', hiff⟩ := hcriterion' 0 1 first second
    (hleads.later.proxies 0 first hfirst) (hleads.later.proxies 1 second hsecond) (by decide)
  have hadvisors : (alteredWorld.profile? 0).map (·.advisors) ≠
      (alteredWorld.profile? 1).map (·.advisors) := by decide +kernel
  rw [World.profile?_of_parts hparts, World.profile?_of_parts hparts'] at hadvisors
  exact hadvisors (congrArg some (hiff.mp hstill).2.1)

end Copies

end Run

end Weaving
