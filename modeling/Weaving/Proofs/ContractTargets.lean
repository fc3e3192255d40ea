import Weaving.Proofs.ContractChecks
import Weaving.Proofs.Hierarchy

/-
Targets whose type is a contract.  Such a type has no subclasses to make, so proxies for it are routed
by contracts, whatever the flags.  The type itself is exposed only where no other contract is: given
or introduced contracts take its place, and then it depends on them whether the proxy may stand for
the type of its own targets.
-/
namespace Weaving

variable {κ σ ν : Type}

namespace ProxyFactory

variable {f : ProxyFactory κ} {type : TypeInfo} {proxy : Proxy} {c : Configuration κ}

/-- Where the targets' type is a contract, a proxy is routed by the contracts that are offered, or else
by that type alone. -/
theorem Made.contracts (h : f.Made (some type) proxy c) (hcontract : type.contract = true) :
    proxy.dispatch = .contracts (.of proxy.proxiedTypes) ∧
      proxy.proxiedTypes =
        if (f.offered (some type)).isEmpty then [type] else (f.offered (some type)).eraseDups := by
  rcases h.routing with ⟨_, hdispatch, htypes⟩ | ⟨_, _, hsubclass, _⟩
  · refine ⟨htypes ▸ hdispatch, ?_⟩
    rw [htypes, h.interfaces]
    simp [Option.filter, hcontract]
  · simp [Configuration.wantsSubclass, hcontract] at hsubclass

/-- Such a proxy may stand for the type exactly if it does so for want of any other contract, or if one
of the contracts that are offered may. -/
theorem Made.isInstanceOf_iff (h : f.Made (some type) proxy c) (hcontract : type.contract = true) :
    proxy.isInstanceOf type = true ↔ f.offered (some type) = [] ∨
      ∃ contract ∈ (f.offered (some type)).eraseDups, contract.isAssignableTo type = true := by
  rw [Proxy.isInstanceOf, (h.contracts hcontract).2]
  cases hbare : (f.offered (some type)).isEmpty with
  | true => simp [List.isEmpty_iff.mp hbare, type.isAssignableTo_self]
  | false =>
      have hoffered : f.offered (some type) ≠ [] := fun hempty => by simp [hempty] at hbare
      obtain ⟨contract, hmem⟩ : ∃ contract, contract ∈ (f.offered (some type)).eraseDups :=
        List.exists_mem_of_ne_nil _ fun hempty => by
          rw [← isEmpty_eraseDups, hempty] at hbare
          cases hbare
      -- every contract can stand for the root, so a target's type that is the root makes no exception
      have hroot : type.isRoot = true → contract.isAssignableTo type = true := fun hroot => by
        rw [TypeInfo.isAssignableTo, hroot, Bool.true_or]
      simp only [if_neg Bool.false_ne_true, Bool.or_eq_true, List.any_eq_true, hoffered, false_or]
      exact ⟨fun h => h.elim (fun h => ⟨contract, hmem, hroot h⟩) fun h => h, .inr⟩

end ProxyFactory

namespace Run

/-- A proxy for targets of a contract is routed by contracts.  It exposes what its factory offers,
each contract once, and the contract of its targets only where nothing else is offered.  It may stand
for that contract exactly if nothing else is offered or one of the contracts offered can stand for it;
from then on and for good, a call of one of its methods is answered by the proxy itself or takes its
full course if the proxy may stand for it, and is refused if it is an ordinary one and the proxy may
not. -/
theorem contract_targets_answered (host : Host κ σ ν) (depth : Nat) (f : ProxyFactory κ)
    (w v : World κ σ ν) (p : ProxyId) (id : SourceId) (source : Source κ) (type : TypeInfo)
    (hf : f.source = some id) (hsource : w.sources[id]? = some source)
    (htype : source.type = some type) (hcontract : type.contract = true)
    (hmade : (makeProxy host (answer host depth) f).run w = some (.ok p, v)) :
    ∃ proxy, v.proxies[p]? = some proxy ∧ proxy.strategy = .contracts ∧
      proxy.proxiedTypes =
        (if (f.offered (some type)).isEmpty then [type] else (f.offered (some type)).eraseDups) ∧
      (proxy.isInstanceOf type = true ↔ f.offered (some type) = [] ∨
        ∃ contract ∈ (f.offered (some type)).eraseDups, contract.isAssignableTo type = true) ∧
      ∀ w', v.Leads host (fun _ => True) w' →
        ∃ c' source', w'.parts? p = some (proxy, c', source') ∧
          ∀ (below : Handler κ σ ν) (m : MethodSignature) (arguments : List Value),
            m.declaringType = type →
            (proxy.isInstanceOf type = true →
              (m.kind ≠ .regular ∧ ∃ x, (invoke host below p m arguments).run w' =
                  some (.ok (w'.ownAnswer p m arguments), x)) ∨
                ∃ line, (invoke host below p m arguments).run w' =
                  (invokeAdvised host below p proxy c' source' m arguments none).run
                    (w'.record (.logged line))) ∧
            (proxy.isInstanceOf type = false → m.kind = .regular →
              ∃ line, (invoke host below p m arguments).run w' =
                some (.error (.unsupportedMethod m.text), w'.record (.logged line))) := by
  rw [makeProxy_of_source hf] at hmade
  obtain ⟨proxy, c, change, hparts, hfresh⟩ :=
    makeProxyOver_made (answer_sound host depth) hsource hmade
  rw [htype] at hfresh
  obtain ⟨hdispatch, htypes⟩ := hfresh.contracts hcontract
  refine ⟨proxy, (World.parts?_eq_some.mp hparts).1, ?_, htypes,
    hfresh.isInstanceOf_iff hcontract, fun w' hleads => ?_⟩
  · rw [Proxy.strategy, hdispatch]
  · obtain ⟨c', change', hparts', _⟩ := hleads.later.parts hparts
    refine ⟨c', _, hparts', fun below m arguments hdeclared => ⟨fun hours => ?_,
      fun hforeign hregular => ?_⟩⟩
    · exact invoke_accepted host below hparts' hdispatch (fun _ => hdeclared ▸ hours) arguments
    · exact invoke_refused host below hparts' hdispatch hregular (hdeclared ▸ hforeign) arguments

section Targets

/-- A contract that extends another. -/
def titledContract : TypeInfo := ⟨5, "Titled", [namedContract], true, false, false⟩

def nameMethod : MethodSignature := { declaringType := namedContract, name := "name" }

/-- Makes a target whose type is a contract, and a source for it. -/
def namedSetup : Code Unit Unit Unit Unit := do
  let target ← Code.ask (.newTarget namedContract ())
  let _ ← Code.ask (.newSource (.singleton target namedContract))

def namedWorld : World Unit Unit Unit := worldAfter Host.idle 1 namedSetup (.initial ())

/-- A proxy for that target which is to expose one contract. -/
def exposing (contract : TypeInfo) : ProxyFactory Unit := { source := some 0, interfaces := [contract] }

/-- The world that making the proxy leaves. -/
def exposingWorld (contract : TypeInfo) : World Unit Unit Unit :=
  (makeProxy Host.idle (answer Host.idle 1) (exposing contract)).leaves namedWorld

/-- A contract that extends the target's own is enough to stand for it. -/
theorem contract_targets_answered_extending :
    ∃ (proxy : Proxy) (c : Configuration Unit) (source : Source Unit),
      namedWorld.sources[0]? = some (.singleton 0 namedContract) ∧
      namedContract.contract = true ∧
      (makeProxy Host.idle (answer Host.idle 1) (exposing titledContract)).run namedWorld =
        some (.ok 0, exposingWorld titledContract) ∧
      proxy.proxiedTypes = [titledContract] ∧
      proxy.isInstanceOf namedContract = true ∧
      ∃ line, (invoke Host.idle (answer Host.idle 1) 0 nameMethod []).run
          (exposingWorld titledContract) =
        (invokeAdvised Host.idle (answer Host.idle 1) 0 proxy c source nameMethod [] none).run
          ((exposingWorld titledContract).record (.logged line)) := by
  have hsource : namedWorld.sources[0]? = some (.singleton 0 namedContract) := by rfl
  have hmade : (makeProxy Host.idle (answer Host.idle 1) (exposing titledContract)).run namedWorld =
      some (.ok 0, exposingWorld titledContract) := run_eq_leaves (by decide +kernel)
  obtain ⟨proxy, hproxy, _, htypes, hinstance, hcalls⟩ := contract_targets_answered Host.idle 1
    (exposing titledContract) namedWorld _ 0 0 _ namedContract rfl hsource rfl rfl hmade
  have hours : proxy.isInstanceOf namedContract = true :=
    hinstance.mpr (.inr ⟨titledContract, .head _, by rfl⟩)
  obtain ⟨c, source, _, hanswers⟩ := hcalls _ (.refl _)
  rcases (hanswers (answer Host.idle 1) nameMethod [] rfl).1 hours with ⟨hother, _⟩ | hadvised
  · exact absurd rfl hother
  · exact ⟨proxy, c, source, hsource, rfl, hmade, htypes, hours, hadvised⟩

/-- Another contract takes the place of the target's own, whose method is then refused. -/
theorem contract_target_left_out :
    namedWorld.sources[0]? = some (.singleton 0 namedContract) ∧ namedContract.contract = true ∧
    (makeProxy Host.idle (answer Host.idle 1) (exposing auditedContract)).run namedWorld =
      some (.ok 0, exposingWorld auditedContract) ∧
    ((exposingWorld auditedContract).proxies[0]?).map
      (fun proxy => (proxy.strategy, proxy.isInstanceOf namedContract)) =
      some (.contracts, false) ∧
    ((invoke Host.idle (answer Host.idle 1) 0 nameMethod []).run
      (exposingWorld auditedContract)).map (·.1) =
      some (.error (.unsupportedMethod nameMethod.text)) := by
  refine ⟨by rfl, rfl, run_eq_leaves (by decide +kernel), by decide +kernel, ?_⟩
  have hfacts : ((exposingWorld auditedContract).parts? 0).map
      (fun parts => (parts.1.dispatch, parts.1.isInstanceOf namedContract)) =
      some (.contracts ⟨false, false⟩, false) := by decide +kernel
  obtain ⟨⟨proxy, c, source⟩, hparts, hfacts⟩ := Option.map_eq_some_iff.mp hfacts
  obtain ⟨hdispatch, hforeign⟩ := Prod.mk.inj hfacts
  obtain ⟨line, hrefused⟩ := invoke_refused Host.idle (answer Host.idle 1) hparts hdispatch
    (m := nameMethod) rfl hforeign []
  rw [hrefused]
  rfl

end Targets

end Run

end Weaving
