import Weaving.Proofs.DeclaredTypes
import Weaving.Proofs.FactoryOutcomes
import Weaving.Proofs.IntroducedContracts

/-
Targets whose type is a class.  The contracts of a class are those that are met first on the ways up
its hierarchy; further contracts are above these.  So a proxy that is given the contracts of its
targets' class, and no others, may stand for exactly the contracts that the class may stand for,
whether it is routed by the contracts or is a subclass.
-/
namespace Weaving

variable {κ σ ν : Type}

namespace TypeInfo

/-- The contracts met first when a hierarchy is entered at a type. -/
def firstContracts (t : TypeInfo) : List TypeInfo := if t.contract then [t] else t.contracts

theorem contractsOf_eq (types : List TypeInfo) :
    ∀ found, contractsOf types found = (types.flatMap firstContracts).foldl pushNew found := by
  induction types with
  | nil => exact fun _ => rfl
  | cons t rest ih =>
      intro found
      rw [contractsOf, ih, List.flatMap_cons, List.foldl_append, firstContracts]
      split
      · rfl
      · rfl

/-- The contracts of a type are those met first through its supertypes. -/
theorem contracts_eq (t : TypeInfo) :
    t.contracts = (t.supertypes.flatMap firstContracts).foldl pushNew [] := by
  cases t
  rw [contracts, contractsOf_eq]

theorem distinct_contracts (t : TypeInfo) : Distinct t.contracts := by
  rw [contracts_eq]
  exact Distinct.foldl_pushNew _ List.Pairwise.nil

theorem mem_of_mem_foldl_pushNew {t : TypeInfo} {types : List TypeInfo} :
    ∀ {found : List TypeInfo}, t ∈ types.foldl pushNew found → t ∈ found ∨ t ∈ types := by
  induction types with
  | nil => exact fun h => .inl h
  | cons s rest ih =>
      intro found h
      rcases ih h with h | h
      · rw [pushNew] at h
        split at h
        · exact .inl h
        · rcases List.mem_append.mp h with h | h
          · exact .inl h
          · rw [List.mem_singleton.mp h]
            exact .inr List.mem_cons_self
      · exact .inr (List.mem_cons_of_mem s h)

/-- Nothing is left out of a list of different types that is made again. -/
theorem Distinct.eraseDups_eq {types : List TypeInfo} (h : Distinct types) :
    types.eraseDups = types := by
  induction types with
  | nil => rfl
  | cons t rest ih =>
      obtain ⟨hdifferent, hrest⟩ := List.pairwise_cons.mp h
      have hkept : rest.filter (fun s => !s == t) = rest := by
        refine List.filter_eq_self.mpr fun s hs => ?_
        rw [Bool.not_eq_true', Bool.eq_false_iff, Ne, beq_iff_id]
        exact (hdifferent s hs).symm
      rw [List.eraseDups_cons, hkept, ih hrest]

/-- The contracts of a type are contracts, and the type reaches them. -/
theorem reaches_of_mem_contracts (t : TypeInfo) :
    ∀ c ∈ t.contracts, c.contract = true ∧ t.Reaches c := by
  induction t using inductionOn with
  | step t ih =>
      intro c hc
      rw [contracts_eq] at hc
      have hfirst := (mem_of_mem_foldl_pushNew hc).resolve_left List.not_mem_nil
      obtain ⟨s, hs, hc⟩ := List.mem_flatMap.mp hfirst
      rw [firstContracts] at hc
      split at hc
      · rename_i hcontract
        rw [List.mem_singleton.mp hc]
        exact ⟨hcontract, .up hs (.refl s)⟩
      · obtain ⟨hcontract, hreaches⟩ := ih s hs c hc
        exact ⟨hcontract, .up hs hreaches⟩

theorem reaches_of_mem_firstContracts {t c : TypeInfo} (hc : c ∈ t.firstContracts) :
    t.Reaches c := by
  rw [firstContracts] at hc
  split at hc
  · rw [List.mem_singleton.mp hc]
    exact .refl t
  · exact (t.reaches_of_mem_contracts c hc).2

end TypeInfo

namespace Universe.Declared

variable {u : Universe} {t s c : TypeInfo}

/-- A declared type has every contract that is met first through one of its supertypes. -/
theorem mem_contracts (hu : u.Declared) (ht : t ∈ u.types) (hs : s ∈ t.supertypes)
    (hc : c ∈ s.firstContracts) : c ∈ t.contracts := by
  have hlisted : c.isIn t.contracts = true := by
    rw [TypeInfo.contracts_eq, TypeInfo.isIn_foldl_pushNew, Bool.or_eq_true]
    exact .inr (List.any_eq_true.mpr
      ⟨c, List.mem_flatMap.mpr ⟨s, hs, hc⟩, TypeInfo.beq_iff_id.mpr rfl⟩)
  -- a declared type is in a list of such types as soon as its identity is
  obtain ⟨listed, hlisted, hsame⟩ := List.any_eq_true.mp hlisted
  have hlisted' : listed ∈ u.types :=
    hu.reaches_mem (t.reaches_of_mem_contracts listed hlisted).2 ht
  have hc' : c ∈ u.types :=
    hu.reaches_mem (TypeInfo.reaches_of_mem_firstContracts hc) (hu.supertypes_mem t ht s hs)
  rwa [← (hu.beq_iff hlisted' hc').mp hsame]

/-- Whatever contract a class reaches, it reaches through one of its contracts. -/
theorem exists_contract (hu : u.Declared) (t : TypeInfo) (ht : t ∈ u.types)
    (hclass : t.contract = false) (hreaches : t.Reaches c) (hcontract : c.contract = true) :
    ∃ first ∈ t.contracts, first.Reaches c := by
  induction t using TypeInfo.inductionOn with
  | step t ih =>
      cases hreaches with
      | refl t =>
          rw [hclass] at hcontract
          cases hcontract
      | @up _ s _ edge rest =>
          have hfirst : ∃ first ∈ s.firstContracts, first.Reaches c := by
            rw [TypeInfo.firstContracts]
            split
            · exact ⟨s, List.mem_singleton_self s, rest⟩
            · rename_i hs
              exact ih s edge (hu.supertypes_mem t ht s edge) (Bool.eq_false_iff.mpr hs) rest
          obtain ⟨first, hfirst, habove⟩ := hfirst
          exact ⟨first, hu.mem_contracts ht edge hfirst, habove⟩

/-- A class may stand for a contract exactly if one of its contracts may. -/
theorem contracts_cover (hu : u.Declared) (ht : t ∈ u.types) (hclass : t.contract = false)
    (hc : c ∈ u.types) (hcontract : c.contract = true) :
    (∃ first ∈ t.contracts, first.isAssignableTo c = true) ↔ t.isAssignableTo c = true := by
  have hroot : ¬ c = TypeInfo.root := fun hroot => by
    rw [hroot] at hcontract
    cases hcontract
  rw [hu.isAssignableTo_iff ht hc]
  constructor
  · rintro ⟨first, hfirst, habove⟩
    have hreaches := (t.reaches_of_mem_contracts first hfirst).2
    have hfirst' := hu.reaches_mem hreaches ht
    exact .inr (hreaches.trans (((hu.isAssignableTo_iff hfirst' hc).mp habove).resolve_left hroot))
  · intro h
    obtain ⟨first, hfirst, habove⟩ :=
      hu.exists_contract t ht hclass (h.resolve_left hroot) hcontract
    have hfirst' := hu.reaches_mem (t.reaches_of_mem_contracts first hfirst).2 ht
    exact ⟨first, hfirst, (hu.isAssignableTo_iff hfirst' hc).mpr (.inr habove)⟩

end Universe.Declared

namespace ProxyFactory

variable {f : ProxyFactory κ} {type : TypeInfo} {proxy : Proxy} {c : Configuration κ}

theorem offered_of_no_introductions (h : ∀ a ∈ f.advisors, a.interfaces = [])
    (type : TypeInfo) : f.offered (some type) = f.interfaces := by
  have hnone : (f.kept (some type)).2.flatMap (·.interfaces) = [] :=
    List.flatMap_eq_nil_iff.mpr fun a ha => h a (mem_screened ha)
  rw [offered, hnone, List.append_nil]

/-- A proxy that was given the contracts of its targets' class exposes these. -/
theorem Made.interfaces_of_class (h : f.Made (some type) proxy c) (hclass : type.contract = false)
    (hgiven : f.interfaces = type.contracts) (hbare : ∀ a ∈ f.advisors, a.interfaces = []) :
    c.interfaces = type.contracts := by
  rw [h.interfaces, offered_of_no_introductions hbare, hgiven,
    type.distinct_contracts.eraseDups_eq]
  split
  · rename_i hnone
    rw [List.isEmpty_iff.mp hnone]
    simp [Option.filter, hclass]
  · rfl

/-- It may stand for a contract exactly if the class may. -/
theorem Made.isInstanceOf_of_class (h : f.Made (some type) proxy c) {u : Universe} (hu : u.Declared)
    (htype : type ∈ u.types) (hclass : type.contract = false) (hgiven : f.interfaces = type.contracts)
    (hbare : ∀ a ∈ f.advisors, a.interfaces = []) {contract : TypeInfo} (hmem : contract ∈ u.types)
    (hcontract : contract.contract = true) :
    proxy.isInstanceOf contract = type.isAssignableTo contract := by
  have hexposed := h.interfaces_of_class hclass hgiven hbare
  have hcover : type.contracts.any (·.isAssignableTo contract) = type.isAssignableTo contract := by
    rw [Bool.eq_iff_iff, List.any_eq_true]
    exact hu.contracts_cover htype hclass hmem hcontract
  have hroot : contract.isRoot = false := by
    rw [Bool.eq_false_iff, Ne, hu.isRoot_iff hmem]
    rintro rfl
    cases hcontract
  rw [Proxy.isInstanceOf, hroot, Bool.false_or]
  rcases h.routing with ⟨_, _, htypes⟩ | ⟨own, _, _, hown, _, htypes⟩
  · rw [htypes, hexposed, hcover]
  · cases hown
    rw [htypes, List.any_cons, hexposed, hcover, Bool.or_self]

end ProxyFactory

namespace Run

/-- A proxy for a target of a class that is given the contracts of the class, as by default, and whose
advisors introduce none, exposes these contracts, each once.  It may stand for exactly those contracts
that the class may stand for, whatever its flags.  Such a proxy is made unless a chain that is to be
settled at once is not built. -/
theorem class_targets_expose_contracts (host : Host κ σ ν) (depth : Nat) (u : Universe)
    (hu : u.Declared) (f : ProxyFactory κ) (w : World κ σ ν) (id : SourceId) (target : TargetId)
    (type : TypeInfo) (hsource : w.sources[id]? = some (.singleton target type))
    (htype : type ∈ u.types) (hclass : type.contract = false)
    (hdraws : f.source = (ProxyFactory.forTarget id type : ProxyFactory κ).source)
    (hgiven : f.interfaces = (ProxyFactory.forTarget id type : ProxyFactory κ).interfaces)
    (hbare : ∀ a ∈ f.advisors, a.interfaces = []) :
    ((f.flags.frozen = true → f.wantsSubclass (some type) = true → ∀ m ∈ f.methods,
        ∀ x, w.Later x → ∃ chain x', (buildChain host (answer host depth)
          (f.completed id (some type)) m (some type)).run x = some (.ok chain, x')) →
      ∃ p v, (makeProxy host (answer host depth) f).run w = some (.ok p, v)) ∧
    ∀ p v, (makeProxy host (answer host depth) f).run w = some (.ok p, v) →
      ∃ proxy c, v.proxies[p]? = some proxy ∧
        v.configurations[proxy.configuration]? = some c ∧
        c.interfaces = type.contracts ∧ TypeInfo.Distinct c.interfaces ∧
        ∀ contract ∈ u.types, contract.contract = true →
          proxy.isInstanceOf contract = type.isAssignableTo contract := by
  have hbelow := answer_sound host depth
  have hfrom : f.DrawsFrom w id (.singleton target type) := by
    rw [ProxyFactory.DrawsFrom, hdraws]
    exact ⟨rfl, hsource⟩
  refine ⟨fun hbuilds => ?_, fun p v hmade => ?_⟩
  · have hended : ((makeProxy host (answer host depth) f).run w).isSome = true := by
      refine makeProxy_isSome hbelow hfrom fun _ _ hwants hfrozen _ m hm x hx => ?_
      obtain ⟨chain, x', hbuilt⟩ := hbuilds hfrozen hwants m hm x hx
      exact Option.isSome_iff_exists.mpr ⟨_, hbuilt⟩
    obtain ⟨⟨made, v⟩, hrun⟩ := Option.isSome_iff_exists.mp hended
    rcases made with e | p
    · cases makeProxy_failing hbelow hfrom hrun with
      | unspecified _ empty => cases empty
      | untyped _ unknown => cases unknown
      | unbuilt wants frozen _ declared later failed =>
          obtain ⟨chain, x', hbuilt⟩ := hbuilds frozen wants _ declared _ later
          cases hbuilt.symm.trans failed
    · exact ⟨p, v, hrun⟩
  · rw [makeProxy_of_source (hdraws.trans rfl)] at hmade
    obtain ⟨proxy, c, change, hparts, hfresh⟩ := makeProxyOver_made hbelow hsource hmade
    obtain ⟨hproxy, hc, _⟩ := World.parts?_eq_some.mp hparts
    have hexposed := hfresh.interfaces_of_class hclass hgiven hbare
    refine ⟨proxy, c, hproxy, hc, hexposed, hexposed ▸ type.distinct_contracts, ?_⟩
    exact fun contract hmem hcontract =>
      hfresh.isInstanceOf_of_class hu htype hclass hgiven hbare hmem hcontract

section Staff

def declaredNamed : TypeInfo × Universe :=
  Universe.initial.declare { name := "Named", contract := true }

def declaredTitled : TypeInfo × Universe :=
  declaredNamed.2.declare { name := "Titled", supertypes := [declaredNamed.1], contract := true }

def declaredPerson : TypeInfo × Universe :=
  declaredTitled.2.declare { name := "Person", supertypes := [declaredNamed.1] }

/-- A class that meets one contract twice, and another in two ways. -/
def declaredStaff : TypeInfo × Universe :=
  declaredPerson.2.declare
    { name := "Staff", supertypes := [declaredTitled.1, declaredPerson.1, declaredTitled.1] }

theorem declaredStaff_declared : declaredStaff.2.Declared := by
  have hnamed : declaredNamed.2.Declared :=
    .declare { name := "Named", contract := true } (fun _ h => nomatch h) .initial
  have hnamedMem : declaredNamed.1 ∈ declaredNamed.2.types := List.mem_of_getElem? (i := 2) rfl
  have htitled : declaredTitled.2.Declared :=
    .declare _ (List.forall_mem_singleton.mpr hnamedMem) hnamed
  have hperson : declaredPerson.2.Declared :=
    .declare _ (List.forall_mem_singleton.mpr (List.mem_append_left _ hnamedMem)) htitled
  have htitledMem : declaredTitled.1 ∈ declaredPerson.2.types :=
    List.mem_of_getElem? (i := 3) rfl
  have hpersonMem : declaredPerson.1 ∈ declaredPerson.2.types :=
    List.mem_of_getElem? (i := 4) rfl
  refine .declare _ ?_ hperson
  simp only [List.forall_mem_cons]
  exact ⟨htitledMem, hpersonMem, htitledMem, fun _ h => nomatch h⟩

def staffSetup : Code Unit Unit Unit Unit := do
  let target ← Code.ask (.newTarget declaredStaff.1 ())
  let _ ← Code.ask (.newSource (.singleton target declaredStaff.1))

def staffWorld : World Unit Unit Unit := worldAfter Host.idle 1 staffSetup (.initial ())

/-- A factory for that target's proxies, which are to be frozen subclasses. -/
def staffFactory : ProxyFactory Unit :=
  { ProxyFactory.forTarget 0 declaredStaff.1 with flags := { optimize := true, frozen := true } }

/-- The subclass exposes two contracts and no others. -/
theorem class_targets_expose_contracts_staff :
    declaredStaff.2.Declared ∧ declaredStaff.1.contract = false ∧
    ∃ p v proxy c,
      (makeProxy Host.idle (answer Host.idle 1) staffFactory).run staffWorld = some (.ok p, v) ∧
      v.proxies[p]? = some proxy ∧ v.configurations[proxy.configuration]? = some c ∧
      c.interfaces.map (·.name) = ["Titled", "Named"] ∧
      proxy.isInstanceOf declaredNamed.1 = true ∧
      proxy.isInstanceOf TypeInfo.rawAccess = false := by
  have hstaff : declaredStaff.1 ∈ declaredStaff.2.types := List.mem_of_getElem? (i := 5) rfl
  have hnamed : declaredNamed.1 ∈ declaredStaff.2.types := List.mem_of_getElem? (i := 2) rfl
  have hraw : TypeInfo.rawAccess ∈ declaredStaff.2.types := List.mem_of_getElem? (i := 1) rfl
  obtain ⟨hbuilt, hmade⟩ := class_targets_expose_contracts Host.idle 1 declaredStaff.2
    declaredStaff_declared staffFactory staffWorld 0 0 declaredStaff.1 (by rfl) hstaff rfl rfl rfl
    (fun _ h => nomatch h)
  obtain ⟨p, v, hrun⟩ := hbuilt fun _ _ _ h => nomatch h
  obtain ⟨proxy, c, hproxy, hc, hexposed, _, hinstance⟩ := hmade p v hrun
  refine ⟨declaredStaff_declared, rfl, p, v, proxy, c, hrun, hproxy, hc, ?_, ?_, ?_⟩
  · rw [hexposed]
    decide
  · rw [hinstance _ hnamed rfl]
    decide
  · rw [hinstance _ hraw rfl]
    decide

end Staff

end Run

end Weaving
