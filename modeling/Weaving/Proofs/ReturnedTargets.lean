import Weaving.Proofs.ChainsInForce

/-
What a client gets of the outcome of its call.  Where a method returns the very target that its call
has taken, and the proxy may stand in for it, the client gets the proxy; a missing value of a basic
type becomes an error; everything else reaches the client as it is.  All ways that a call can take
through a proxy look at the outcome in this one way.
-/
namespace Weaving

variable {κ σ ν : Type} {host : Host κ σ ν} {below : Handler κ σ ν}

/-- A proxy covers a method if the method returns objects of a type below the root type that one of
the proxy's types is assignable to, and is not declared to hand out targets. -/
def Proxy.Covers (proxy : Proxy) (m : MethodSignature) : Prop :=
  ∃ type, m.returnType = .reference type ∧ type.isRoot = false ∧
    (∃ own ∈ proxy.proxiedTypes, own.isAssignableTo type = true) ∧
    m.declaringType.isAssignableTo .rawAccess = false

theorem Proxy.standsInFor_iff (proxy : Proxy) (m : MethodSignature) :
    proxy.standsInFor m = true ↔ proxy.Covers m := by
  rw [standsInFor, Covers]
  cases m.returnType with
  | reference type =>
      cases hroot : type.isRoot with
      | true => simp [hroot]
      | false =>
          simp [isInstanceOf, TypeInfo.isRawAccess, hroot, and_comm]
  | _ => simp

/-- What the client gets, given the target that its call has taken and the outcome of the call. -/
inductive Delivers (p : ProxyId) (proxy : Proxy) (m : MethodSignature)
    (target : Option TargetId) : Result → Result → Prop where
  /-- The proxy stands in for the target. -/
  | replaced {t : TargetId} (taken : target = some t) (covered : proxy.Covers m) :
      Delivers p proxy m target (.ok (some (.target t))) (.ok (some (.proxy p)))
  /-- A basic value must not be missing. -/
  | missing {name : String} (basic : m.returnType = .primitive name) :
      Delivers p proxy m target (.ok none) (.error (.invocation m.text name))
  /-- Everything else is left as it is. -/
  | unchanged {outcome : Result}
      (visible : ∀ t, target = some t → outcome = .ok (some (.target t)) → ¬ proxy.Covers m)
      (present : ∀ name, m.returnType = .primitive name → outcome ≠ .ok none) :
      Delivers p proxy m target outcome outcome

/-- What the client gets is determined by the outcome. -/
theorem Delivers.unique {p : ProxyId} {proxy : Proxy} {m : MethodSignature}
    {target : Option TargetId} {outcome result result' : Result}
    (h : Delivers p proxy m target outcome result)
    (h' : Delivers p proxy m target outcome result') : result = result' := by
  cases h with
  | replaced taken covered =>
      cases h' with
      | replaced _ _ => rfl
      | unchanged visible _ => exact absurd covered (visible _ taken rfl)
  | missing basic =>
      cases h' with
      | missing basic' =>
          cases basic.symm.trans basic'
          rfl
      | unchanged _ present => exact absurd rfl (present _ basic)
  | unchanged visible present =>
      cases h' with
      | replaced taken covered => exact absurd covered (visible _ taken rfl)
      | missing basic => exact absurd rfl (present _ basic)
      | unchanged _ _ => rfl

/-- How a call with a settled chain comes to its result. -/
inductive Concludes (host : Host κ σ ν) (below : Handler κ σ ν) (p : ProxyId) (proxy : Proxy)
    (id : SourceId) (source : Source κ) (m : MethodSignature) (arguments : List Value)
    (chain : Chain κ) (w : World κ σ ν) : Result → Prop where
  /-- The source gave no target. -/
  | refused {e : AopError} {v : World κ σ ν}
      (asked : (Run.acquire host below id).run { w with calls := w.calls + 1 } =
        some (.error e, v)) :
      Concludes host below p proxy id source m arguments chain w (.error e)
  /-- The client gets what is made of the outcome, there being nothing to give back. -/
  | kept {target : Option TargetId} {outcome result : Result} {v x : World κ σ ν}
      (taken : (Run.acquire host below id).run { w with calls := w.calls + 1 } =
        some (.ok target, v))
      (ran : (Run.runChain host below w.calls p m arguments target source.type chain).run
        (v.record (.act (.acquired w.calls id target))) = some (outcome, x))
      (delivers : Delivers p proxy m target outcome result)
      (keeps : target = none ∨ source.isStatic = true) :
      Concludes host below p proxy id source m arguments chain w result
  /-- The target is given back when what the client gets is settled. -/
  | givenBack {target : TargetId} {outcome result : Result} {given : Except AopError Unit}
      {v x y z : World κ σ ν}
      (taken : (Run.acquire host below id).run { w with calls := w.calls + 1 } =
        some (.ok (some target), v))
      (ran : (Run.runChain host below w.calls p m arguments (some target) source.type chain).run
        (v.record (.act (.acquired w.calls id (some target)))) = some (outcome, x))
      (delivers : Delivers p proxy m (some target) outcome result)
      (lent : source.isStatic = false) (only : x.Alike y)
      (returned : (Run.release host below id target).run y = some (given, z)) :
      Concludes host below p proxy id source m arguments chain w (afterRelease result given)

/-- The chain that a callback is chosen with, if it needs not be looked up. -/
def Callback.fixed? : Callback κ → Option (Chain κ)
  | .fixedChain chain => some chain
  | .invokeTarget => some []
  | .dispatchTarget => some []
  | _ => none

namespace Run

variable {p : ProxyId} {proxy : Proxy} {c : Configuration κ} {id : SourceId} {source : Source κ}
  {m : MethodSignature} {arguments : List Value} {chain : Chain κ} {w w' : World κ σ ν}
  {result : Result}

/-- Looking at an outcome ends with what the client is to get, and does nothing but log. -/
theorem finishCall_delivers (p : ProxyId) (proxy : Proxy) (m : MethodSignature)
    (target : Option TargetId) (outcome : Result) (w : World κ σ ν) :
    ∃ result w', (finishCall p proxy m target outcome).run w = some (result, w') ∧
      Delivers p proxy m target outcome result ∧ w.Alike w' := by
  rcases outcome with e | value
  · exact ⟨_, w, rfl, .unchanged (fun _ _ h => nomatch h) (fun _ _ h => nomatch h), .refl w⟩
  · rcases value with _ | value
    · cases hreturn : m.returnType with
      | primitive name =>
          refine ⟨.error (.invocation m.text name), w, ?_, .missing hreturn, .refl w⟩
          simp only [finishCall, processReturn, hreturn]
          rfl
      | _ =>
          refine ⟨.ok none, w, ?_, .unchanged ?_ ?_, .refl w⟩
          · simp only [finishCall, processReturn, hreturn]
            rfl
          · intro t _ hvalue
            cases hvalue
          · intro name hname
            rw [hreturn] at hname
            cases hname
    · by_cases hstands : (target.map Value.target = some value && proxy.standsInFor m) = true
      · obtain ⟨hvalue, hcovered⟩ : target.map Value.target = some value ∧
            proxy.standsInFor m = true := by simpa using hstands
        obtain ⟨t, rfl, rfl⟩ := Option.map_eq_some_iff.mp hvalue
        have hrun : ∃ line, (finishCall p proxy m (some t) (.ok (some (.target t)))).run w =
            some (.ok (some (.proxy p)), w.record (.logged line)) := by
          simp only [finishCall, processReturn, hstands, if_true]
          exact ⟨_, rfl⟩
        obtain ⟨line, hrun⟩ := hrun
        exact ⟨_, _, hrun, .replaced rfl ((proxy.standsInFor_iff m).mp hcovered),
          World.alike_record_line w line⟩
      · refine ⟨.ok (some value), w, ?_, .unchanged ?_ ?_, .refl w⟩
        · simp only [finishCall, processReturn, hstands]
          rfl
        · intro t ht hvalue hcovered
          cases ht
          cases hvalue
          simp [(proxy.standsInFor_iff m).mpr hcovered] at hstands
        · intro name _ hnone
          cases hnone

theorem finishCall_eq_some {target : Option TargetId} {outcome : Result}
    (h : (finishCall p proxy m target outcome).run w = some (result, w')) :
    Delivers p proxy m target outcome result ∧ w.Alike w' := by
  obtain ⟨made, v, hmade, hdelivers, hsame⟩ := finishCall_delivers p proxy m target outcome w
  cases hmade.symm.trans h
  exact ⟨hdelivers, hsame⟩

theorem runSettled_concludes
    (h : (runSettled host below p proxy id source m arguments chain).run w = some (result, w')) :
    Concludes host below p proxy id source m arguments chain w result := by
  obtain ⟨call, u, hbegin, h⟩ := run_bind_eq_some.mp h
  cases hbegin
  obtain ⟨acquired, u, hacquire, h⟩ := run_bind_eq_some.mp h
  obtain ⟨v, htaken, rfl⟩ := acquireFor_run hacquire
  rcases acquired with e | target
  · cases h
    exact .refused htaken
  · obtain ⟨outcome, x, hran, h⟩ := run_bind_eq_some.mp h
    obtain ⟨delivered, y, hfinish, hrelease⟩ := run_bind_eq_some.mp h
    obtain ⟨hdelivers, hsame⟩ := finishCall_eq_some hfinish
    by_cases hkeeps : target = none ∨ source.isStatic = true
    · rw [releaseFor_kept hkeeps] at hrelease
      cases hrelease
      exact .kept htaken hran hdelivers hkeeps
    · obtain ⟨hsome, hlent⟩ := not_or.mp hkeeps
      obtain ⟨target, rfl⟩ := Option.ne_none_iff_exists'.mp hsome
      have hlent : source.isStatic = false := by simpa using hlent
      rcases hgive : (release host below id target).run y with _ | ⟨given, z⟩
      · -- without an answer from the source the call has none either
        rw [releaseFor] at hrelease
        simp only [hlent, Bool.false_eq_true, if_false] at hrelease
        rw [StateT.run_bind, hgive] at hrelease
        cases hrelease
      · obtain ⟨v', hreleased⟩ := releaseFor_run w.calls hlent hgive m delivered
        cases hreleased.symm.trans hrelease
        exact .givenBack htaken hran hdelivers hlent hsame hgive

/-- A call that takes its full course settles its chain and concludes with it. -/
theorem invokeAdvised_concludes {fixed : Option (Chain κ)}
    (h : (invokeAdvised host below p proxy c source m arguments fixed).run w =
      some (result, w')) :
    ∃ settled v, (settleChain host below proxy source m fixed).run
        (w.exposing c.flags.exposeProxy p) = some (settled, v) ∧
      match settled with
      | .error e => result = .error e
      | .ok chain => Concludes host below p proxy c.source source m arguments chain v result := by
  rw [invokeAdvised_eq] at h
  obtain ⟨y, hbody, rfl⟩ := whileExposed_eq_some h
  obtain ⟨settled, v, hsettled, hrun⟩ := run_bind_eq_some.mp hbody
  refine ⟨settled, v, hsettled, ?_⟩
  rcases settled with e | chain
  · cases hrun
    rfl
  · exact runSettled_concludes hrun

/-- Where a static source need not see the proxy exposed, reaching its target at once is taking the
full course without interceptors. -/
theorem perform_dispatchTarget (hbelow : below.Sound host) (hstatic : source.isStatic = true)
    (hhidden : c.flags.exposeProxy = false) (p : ProxyId) (proxy : Proxy) (m : MethodSignature)
    (arguments : List Value) (w : World κ σ ν) :
    Alike ((perform host below .dispatchTarget p proxy c source m arguments).run w)
      ((perform host below .invokeTarget p proxy c source m arguments).run w) := by
  simp only [perform, invokeAdvised, hhidden]
  exact runSettled_nil hbelow hstatic w

theorem perform_concludes (hbelow : below.Sound host) {callback : Callback κ}
    (hown : callback.isOwn = false)
    (hdirect : callback = .dispatchTarget →
      source.isStatic = true ∧ c.flags.exposeProxy = false)
    (h : (perform host below callback p proxy c source m arguments).run w =
      some (result, w')) :
    ∃ settled v, (settleChain host below proxy source m callback.fixed?).run
        (w.exposing c.flags.exposeProxy p) = some (settled, v) ∧
      match settled with
      | .error e => result = .error e
      | .ok chain => Concludes host below p proxy c.source source m arguments chain v result := by
  cases callback with
  | advised => exact invokeAdvised_concludes h
  | fixedChain chain => exact invokeAdvised_concludes h
  | invokeTarget => exact invokeAdvised_concludes h
  | dispatchTarget =>
      obtain ⟨hstatic, hhidden⟩ := hdirect rfl
      have halike := perform_dispatchTarget hbelow hstatic hhidden p proxy m arguments w
      rw [h] at halike
      obtain ⟨y, hinvoked, _⟩ := halike.symm.eq_some
      exact invokeAdvised_concludes hinvoked
  | noOverride => cases hown
  | proxyEquals => cases hown
  | proxyHash => cases hown

/-- No client gets a raw target where its proxy can stand in, and no outcome is touched otherwise.
By whatever callback a call goes, its client gets what is made of the outcome of its chain in one
way, which asks only for the types of the proxy; so does a call of an ordinary method on a proxy of
either strategy, whose course ends with that, unless it is refused as unsupported or has no chain.
Whether a target is invoked
without interceptors or reached at once makes no difference. -/
theorem targets_replaced_by_proxies (host : Host κ σ ν) (identity : MethodKey → Prop)
    (hhost : host.Proper identity True) (depth : Nat) :
    (∀ (callback : Callback κ) (p : ProxyId) (proxy : Proxy) (c : Configuration κ)
        (source : Source κ) (m : MethodSignature) (arguments : List Value) (w w' : World κ σ ν)
        (result : Result),
      callback.isOwn = false →
      (callback = .dispatchTarget → source.isStatic = true ∧ c.flags.exposeProxy = false) →
      (perform host (answer host depth) callback p proxy c source m arguments).run w =
        some (result, w') →
      ∃ settled v, (settleChain host (answer host depth) proxy source m callback.fixed?).run
          (w.exposing c.flags.exposeProxy p) = some (settled, v) ∧
        match settled with
        | .error e => result = .error e
        | .ok chain => Concludes host (answer host depth) p proxy c.source source m arguments
            chain v result) ∧
    (∀ (p : ProxyId) (proxy : Proxy) (c : Configuration κ) (source : Source κ)
        (m : MethodSignature) (arguments : List Value) (w w' : World κ σ ν) (result : Result),
      w.Visited host identity → w.parts? p = some (proxy, c, source) →
      m.kind = .regular → ¬ identity m.key →
      (invoke host (answer host depth) p m arguments).run w = some (result, w') →
      ∃ taken, Course host identity depth p proxy source m arguments w taken result w' ∧
        ∀ passage, taken = some passage →
          Concludes host (answer host depth) p proxy c.source source m arguments passage.chain
            passage.first result) ∧
    ∀ (p : ProxyId) (proxy : Proxy) (c : Configuration κ) (source : Source κ)
      (m : MethodSignature) (arguments : List Value) (w : World κ σ ν),
      source.isStatic = true → c.flags.exposeProxy = false →
      Alike ((perform host (answer host depth) .dispatchTarget p proxy c source m arguments).run w)
        ((perform host (answer host depth) .invokeTarget p proxy c source m arguments).run w) := by
  have hbelow := answer_sound host depth
  refine ⟨?_, ?_, ?_⟩
  · intro callback p proxy c source m arguments w w' result hown hdirect h
    exact perform_concludes hbelow hown hdirect h
  · intro p proxy c source m arguments w w' result hw hparts hregular hkey h
    obtain ⟨taken, hcourse⟩ := invoke_course hhost hw hparts hregular hkey h
    refine ⟨taken, hcourse, fun passage htaken => ?_⟩
    subst htaken
    exact runSettled_concludes (hcourse.runs hhost (World.parts?_eq_some.mp hparts).2.1)
  · intro p proxy c source m arguments w hstatic hhidden
    exact perform_dispatchTarget hbelow hstatic hhidden p proxy m arguments w

section Fluent

/-- Targets that return themselves. -/
def fluentHost : Host Unit Unit Unit :=
  { Host.idle with target := fun _ t _ _ => return .ok (some (.target t)) }

def fluentType : TypeInfo := ⟨2, "Builder", [], false, false, false⟩

def fluentMethod : MethodSignature :=
  { declaringType := fluentType, name := "append", returnType := .reference fluentType }

/-- Makes a frozen subclass proxy of one target, without advice. -/
def fluentSetup : Code Unit Unit Unit (Except AopError ProxyId) := do
  let target ← Code.ask (.newTarget fluentType ())
  let source ← Code.ask (.newSource (.singleton target fluentType))
  Code.ask (.makeProxy { flags := { frozen := true }, source := some source })

def fluentWorld : World Unit Unit Unit := worldAfter fluentHost 1 fluentSetup (.initial ())

theorem fluentHost_proper : fluentHost.Proper identityKeys True :=
  { (Host.idle_proper identityKeys True : (Host.idle : Host Unit Unit Unit).Proper _ _) with
    target := fun _ _ _ _ => trivial }

/-- Instead of a target that returns itself, the client gets the proxy. -/
theorem targets_replaced_by_proxies_fluent :
    ∃ proxy c source w', fluentWorld.parts? 0 = some (proxy, c, source) ∧
      (invoke fluentHost (answer fluentHost 2) 0 fluentMethod []).run fluentWorld =
        some (.ok (some (.proxy 0)), w') ∧
      ∃ passage, Course fluentHost identityKeys 2 0 proxy source fluentMethod [] fluentWorld
          (some passage) (.ok (some (.proxy 0))) w' ∧
        Concludes fluentHost (answer fluentHost 2) 0 proxy c.source source fluentMethod []
          passage.chain passage.first (.ok (some (.proxy 0))) := by
  have hvisited : fluentWorld.Visited fluentHost identityKeys := by
    refine worldAfter_visited fluentHost_proper ?_ (.initial ())
    exact ⟨trivial, fun _ => ⟨trivial, fun _ => ⟨trivial, fun _ => trivial⟩⟩⟩
  have hvalue : ((invoke fluentHost (answer fluentHost 2) 0 fluentMethod []).run
      fluentWorld).map (·.1.toOption) = some (some (some (.proxy 0))) := by decide +kernel
  obtain ⟨⟨result, w'⟩, hrun, hvalue⟩ := Option.map_eq_some_iff.mp hvalue
  obtain rfl : result = .ok (some (.proxy 0)) := by
    rcases result with e | value
    · cases hvalue
    · exact congrArg _ (Option.some.inj hvalue)
  have hparts : (fluentWorld.parts? 0).isSome = true := by decide +kernel
  obtain ⟨⟨proxy, c, source⟩, hparts⟩ := Option.isSome_iff_exists.mp hparts
  have hkey : ¬ identityKeys fluentMethod.key := by
    simp [identityKeys, fluentMethod, fluentType, MethodSignature.key, MethodSignature.equals,
      MethodSignature.hashCode, MethodSignature.finalizer]
  obtain ⟨_, hcalls, _⟩ := targets_replaced_by_proxies fluentHost identityKeys fluentHost_proper 2
  obtain ⟨taken, hcourse, hconcludes⟩ :=
    hcalls 0 proxy c source fluentMethod [] fluentWorld w' _ hvisited hparts rfl hkey hrun
  obtain ⟨passage, rfl⟩ := hcourse.passage_of_ok
  exact ⟨proxy, c, source, w', hparts, hrun, passage, hcourse, hconcludes passage rfl⟩

end Fluent

end Run

end Weaving
