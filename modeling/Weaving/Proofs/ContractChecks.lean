import Weaving.Proofs.ConfigurationHistories
import Weaving.Proofs.MadeProxies

/-
The check of contracts.  A proxy that is routed by contracts takes the types it stands for from its
configuration when it is made, and goes by these for good.  The configuration goes on taking contracts:
those that are given later it exposes, and the proxy refuses the calls of their methods.
-/
namespace Weaving

variable {κ σ ν : Type}

namespace Run

variable {host : Host κ σ ν} {below : Handler κ σ ν} {p : ProxyId} {proxy : Proxy}
  {c : Configuration κ} {source : Source κ} {w : World κ σ ν}

/-- A call of an ordinary method is refused if the proxy may not stand for the declaring type. -/
theorem invoke_refused (host : Host κ σ ν) (below : Handler κ σ ν)
    (hparts : w.parts? p = some (proxy, c, source)) {d : ContractDispatcher}
    (hdispatch : proxy.dispatch = .contracts d) {m : MethodSignature} (hregular : m.kind = .regular)
    (hforeign : proxy.isInstanceOf m.declaringType = false) (arguments : List Value) :
    ∃ line, (invoke host below p m arguments).run w =
      some (.error (.unsupportedMethod m.text), w.record (.logged line)) := by
  obtain ⟨hproxy, hc, hsource⟩ := World.parts?_eq_some.mp hparts
  obtain ⟨line, hrun⟩ := invoke_run host below hproxy m arguments
  rw [hdispatch] at hrun
  have hroot : m.declaringType.isRoot = false := (Bool.or_eq_false_iff.mp hforeign).1
  exact ⟨line, hrun.trans (routeByContracts_refused host below (w := w.record (.logged line))
    hproxy hc hsource hregular ⟨hroot, hforeign⟩ arguments)⟩

/-- Any other call has the proxy's own answer, or takes its full course. -/
theorem invoke_accepted (host : Host κ σ ν) (below : Handler κ σ ν)
    (hparts : w.parts? p = some (proxy, c, source)) {d : ContractDispatcher}
    (hdispatch : proxy.dispatch = .contracts d) {m : MethodSignature}
    (hours : m.kind = .regular → proxy.isInstanceOf m.declaringType = true)
    (arguments : List Value) :
    (m.kind ≠ .regular ∧ ∃ x, (invoke host below p m arguments).run w =
        some (.ok (w.ownAnswer p m arguments), x)) ∨
      ∃ line, (invoke host below p m arguments).run w =
        (invokeAdvised host below p proxy c source m arguments none).run
          (w.record (.logged line)) := by
  obtain ⟨hproxy, hc, hsource⟩ := World.parts?_eq_some.mp hparts
  obtain ⟨line, hrun⟩ := invoke_run host below hproxy m arguments
  rw [hdispatch] at hrun
  cases hkeeps : m.isOwn d.equalsDefined d.hashDefined with
  | true =>
      obtain ⟨x, hanswered, _⟩ := routeByContracts_kept host below (d := d)
        (w := w.record (.logged line)) hproxy hc hsource hkeeps arguments
      refine .inl ⟨fun hregular => ?_, x, hrun.trans hanswered⟩
      simp [MethodSignature.isOwn, hregular] at hkeeps
  | false =>
      refine .inr ⟨line, hrun.trans (routeByContracts_advised host below
        (w := w.record (.logged line)) hproxy hc hsource hkeeps ?_ arguments)⟩
      rintro ⟨hregular, _, hforeign⟩
      rw [hours hregular] at hforeign
      cases hforeign

/-- A call of an ordinary method takes its full course if the proxy may stand for the declaring type,
and else it is refused. -/
theorem invoke_checked (host : Host κ σ ν) (below : Handler κ σ ν)
    (hparts : w.parts? p = some (proxy, c, source)) {d : ContractDispatcher}
    (hdispatch : proxy.dispatch = .contracts d) {m : MethodSignature} (hregular : m.kind = .regular)
    (arguments : List Value) :
    ∃ line, (invoke host below p m arguments).run w =
      if proxy.isInstanceOf m.declaringType then
        (invokeAdvised host below p proxy c source m arguments none).run (w.record (.logged line))
      else some (.error (.unsupportedMethod m.text), w.record (.logged line)) := by
  cases hours : proxy.isInstanceOf m.declaringType with
  | false => exact invoke_refused host below hparts hdispatch hregular hours arguments
  | true =>
      rcases invoke_accepted host below hparts hdispatch (fun _ => hours) arguments with
        ⟨hother, _⟩ | hadvised
      · exact absurd hregular hother
      · exact hadvised

/-- The contracts that a proxy goes by are those that its configuration exposed when it was made,
whatever has been done to the configuration since.  The configuration also exposes the contracts that
were given to it later, so the two agree about a type exactly if a contract of the first ones can stand
for it or none of the later ones can.  The calls of a method are refused where the proxy may not stand
for the declaring type, even if the configuration exposes a contract that may. -/
theorem contract_check_keeps_to_creation (host : Host κ σ ν) (depth : Nat) (f : ProxyFactory κ)
    (w v : World κ σ ν) (p : ProxyId)
    (hmade : (makeProxy host (answer host depth) f).run w = some (.ok p, v)) :
    ∃ proxy c source, v.parts? p = some (proxy, c, source) ∧
      ∀ d, proxy.dispatch = .contracts d →
        (∀ w', v.Leads host (fun _ => True) w' →
          ∃ deeds, v.ChangedBy host proxy.configuration deeds w') ∧
        ∀ deeds w', v.ChangedBy host proxy.configuration deeds w' →
          ∃ c' change, w'.parts? p = some (proxy, c', source.mapPool change) ∧
            (∀ type : TypeInfo, type.isRoot = false →
              proxy.isInstanceOf type = c.isInterfaceProxied type ∧
              c'.isInterfaceProxied type =
                (c.isInterfaceProxied type ||
                  (c.newContracts deeds).any (·.isAssignableTo type)) ∧
              (proxy.isInstanceOf type = c'.isInterfaceProxied type ↔
                c.isInterfaceProxied type = true ∨
                  ∀ contract ∈ c.newContracts deeds, contract.isAssignableTo type = false)) ∧
            ∀ (below : Handler κ σ ν) (m : MethodSignature) (arguments : List Value),
              m.kind = .regular → m.declaringType.isRoot = false →
              ∃ line, (invoke host below p m arguments).run w' =
                if c.isInterfaceProxied m.declaringType then
                  (invokeAdvised host below p proxy c' (source.mapPool change) m arguments
                    none).run (w'.record (.logged line))
                else some (.error (.unsupportedMethod m.text), w'.record (.logged line)) := by
  obtain ⟨proxy, c, source, hparts, hfresh⟩ := makeProxy_made (answer_sound host depth) hmade
  refine ⟨proxy, c, source, hparts, fun d hdispatch => ⟨fun w' hleads =>
    hleads.changedBy (World.parts?_eq_some.mp hparts).2.1, fun deeds w' hchanged => ?_⟩⟩
  have htypes : proxy.proxiedTypes = c.interfaces := by
    rcases hfresh.routing with ⟨_, _, htypes⟩ | ⟨_, _, _, _, hsubclass, _⟩
    · exact htypes
    · rw [hdispatch] at hsubclass
      cases hsubclass
  have hinstance : ∀ type : TypeInfo, type.isRoot = false →
      proxy.isInstanceOf type = c.isInterfaceProxied type := by
    intro type hroot
    rw [Proxy.isInstanceOf, hroot, Bool.false_or, htypes]
    rfl
  obtain ⟨c', change, hparts', _, haccount⟩ := hchanged.parts hparts
  refine ⟨c', change, hparts', fun type hroot => ?_, fun below m arguments hregular hroot => ?_⟩
  · have hproxied : c'.isInterfaceProxied type =
        (c.isInterfaceProxied type || (c.newContracts deeds).any (·.isAssignableTo type)) := by
      rw [Configuration.isInterfaceProxied, haccount.interfaces_eq, List.any_append]
      rfl
    refine ⟨hinstance type hroot, hproxied, ?_⟩
    rw [hinstance type hroot, hproxied]
    cases c.isInterfaceProxied type <;> simp
  · rw [← hinstance m.declaringType hroot]
    exact invoke_checked host below hparts' hdispatch hregular arguments

section Belated

def namedContract : TypeInfo := ⟨2, "Named", [], true, false, false⟩

def auditedContract : TypeInfo := ⟨3, "Audited", [], true, false, false⟩

def servingType : TypeInfo := ⟨4, "Service", [namedContract], false, false, false⟩

def auditMethod : MethodSignature := { declaringType := auditedContract, name := "audit" }

/-- An introduction that comes too late. -/
def auditing : Advisor Unit :=
  .introduction .all [auditedContract] ⟨"audit", .around ⟨none, .scripted ()⟩⟩

/-- Makes a target and a source for it. -/
def servingSetup : Code Unit Unit Unit Unit := do
  let target ← Code.ask (.newTarget servingType ())
  let _ ← Code.ask (.newSource (.singleton target servingType))

def servingWorld : World Unit Unit Unit := worldAfter Host.idle 1 servingSetup (.initial ())

/-- A proxy is made. -/
def servedWorld : World Unit Unit Unit :=
  (makeProxy Host.idle (answer Host.idle 1) (.forTarget 0 servingType)).leaves servingWorld

/-- The introduction is put in. -/
def belatedWorld : World Unit Unit Unit :=
  (answer Host.idle 1 (.insertAdvisor 0 none auditing)).leaves servedWorld

/-- The introduction is taken, its contract is exposed, and its method is refused. -/
theorem contract_check_keeps_to_creation_belated :
    ∃ (proxy : Proxy) (c' : Configuration Unit) (source : Source Unit),
      (makeProxy Host.idle (answer Host.idle 1) (.forTarget 0 servingType)).run servingWorld =
        some (.ok 0, servedWorld) ∧
      (answer Host.idle 1 (.insertAdvisor 0 none auditing)).run servedWorld =
        some (.ok (), belatedWorld) ∧
      belatedWorld.parts? 0 = some (proxy, c', source) ∧
      c'.isInterfaceProxied auditedContract = true ∧
      proxy.isInstanceOf auditedContract = false ∧
      ∃ line, (invoke Host.idle (answer Host.idle 1) 0 auditMethod []).run belatedWorld =
        some (.error (.unsupportedMethod auditMethod.text), belatedWorld.record (.logged line)) := by
  have hmade : (makeProxy Host.idle (answer Host.idle 1) (.forTarget 0 servingType)).run
      servingWorld = some (.ok 0, servedWorld) := run_eq_leaves (by decide +kernel)
  have hinserted : (answer Host.idle 1 (.insertAdvisor 0 none auditing)).run servedWorld =
      some (.ok (), belatedWorld) := run_eq_leaves (by decide +kernel)
  have hleads : servedWorld.Leads Host.idle (fun _ => True) belatedWorld :=
    answer_leads hinserted
  have hfacts : (belatedWorld.parts? 0).map (fun parts => (parts.1.dispatch,
      parts.2.1.isInterfaceProxied auditedContract, parts.1.isInstanceOf auditedContract)) =
      some (.contracts ⟨false, false⟩, true, false) := by decide +kernel
  obtain ⟨proxy, c, source, hparts, hchecks⟩ := contract_check_keeps_to_creation Host.idle 1
    (.forTarget 0 servingType) servingWorld servedWorld 0 hmade
  have hproxy : belatedWorld.proxies[0]? = some proxy :=
    hleads.later.proxies 0 proxy (World.parts?_eq_some.mp hparts).1
  obtain ⟨⟨proxy', c₁, source₁⟩, hparts₁, hfacts⟩ := Option.map_eq_some_iff.mp hfacts
  obtain rfl : proxy' = proxy :=
    Option.some.inj ((World.parts?_eq_some.mp hparts₁).1.symm.trans hproxy)
  simp only [Prod.mk.injEq] at hfacts
  obtain ⟨hdispatch, hexposed, hforeign⟩ := hfacts
  obtain ⟨hhistories, hchecks⟩ := hchecks _ hdispatch
  obtain ⟨deeds, hchanged⟩ := hhistories belatedWorld hleads
  obtain ⟨c', change, hparts', htypes, hcalls⟩ := hchecks deeds belatedWorld hchanged
  cases hparts'.symm.trans hparts₁
  have hbefore : c.isInterfaceProxied auditMethod.declaringType = false :=
    (htypes auditedContract rfl).1.symm.trans hforeign
  obtain ⟨line, hrefused⟩ := hcalls (answer Host.idle 1) auditMethod [] rfl rfl
  rw [hbefore] at hrefused
  exact ⟨proxy', c₁, _, hmade, hinserted, hparts', hexposed, hforeign, line, hrefused⟩

end Belated

end Run

end Weaving
