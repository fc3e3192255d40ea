import Weaving.Proofs.AgreementOfAnswers
import Weaving.Proofs.Shortcuts

/-
The full course of a call.  An ordinary call that a proxy takes on comes out as if it were never cut
short: a proxy of the subclass strategy chooses the callback of the method, if it has none, and then
goes by the chain of the configuration, which is what the callback stands for.  `Course` tells such a
call step by step, from the world in which it is made to the one in which it ends.
-/
namespace Weaving

/-- A proxy of the contract strategy accepts the ordinary methods of the root type and of its own
types; one of the subclass strategy accepts all of them. -/
def Proxy.Accepts (proxy : Proxy) (m : MethodSignature) : Prop :=
  ∀ d, proxy.dispatch = .contracts d →
    m.declaringType.isRoot = true ∨ proxy.isInstanceOf m.declaringType = true

namespace Run

variable {κ σ ν : Type} {host : Host κ σ ν} {below : Handler κ σ ν}

/-- The course of a call that is not cut short; by callbacks, the callback is chosen first. -/
def fullCourse (host : Host κ σ ν) (below : Handler κ σ ν) (p : ProxyId) (proxy : Proxy)
    (c : Configuration κ) (source : Source κ) (m : MethodSignature) (arguments : List Value) :
    Run κ σ ν Result :=
  match proxy.dispatch with
  | .contracts _ => invokeAdvised host below p proxy c source m arguments none
  | .subclass dispatcher => do
    match ← callbackOf host below dispatcher proxy.configuration source m with
    | .error e => return .error e
    | .ok _ => invokeAdvised host below p proxy c source m arguments none

section Courses

variable {p : ProxyId} {proxy : Proxy} {c : Configuration κ} {source : Source κ}
  {m : MethodSignature} {arguments : List Value} {w : World κ σ ν}

/-- Of the configuration, a call needs what never changes. -/
theorem invokeAdvised_congr {c' : Configuration κ} (hlater : c.Later c')
    (fixed : Option (Chain κ)) :
    invokeAdvised host below p proxy c source m arguments fixed =
      invokeAdvised host below p proxy c' source m arguments fixed := by
  rw [invokeAdvised_eq, invokeAdvised_eq, hlater.flags, hlater.source]

theorem perform_congr {c' : Configuration κ} (hlater : c.Later c') (callback : Callback κ) :
    perform host below callback p proxy c source m arguments =
      perform host below callback p proxy c' source m arguments := by
  have hadvised (fixed : Option (Chain κ)) :
      invokeAdvised host below p proxy c source m arguments fixed =
        invokeAdvised host below p proxy c' source m arguments fixed := invokeAdvised_congr hlater fixed
  cases callback with
  | advised => exact hadvised none
  | fixedChain chain => exact hadvised (some chain)
  | invokeTarget => exact hadvised (some [])
  | dispatchTarget => simp only [perform, hlater.source]
  | _ => rfl

theorem fullCourse_sound (hbelow : below.Sound host) :
    Sound host (fun _ => True) 0 (fullCourse host below p proxy c source m arguments) := by
  have hadvised : Sound host (fun _ => True) 0
      (invokeAdvised host below p proxy c source m arguments none) :=
    invokeAdvised_sound hbelow (fun _ _ => trivial) p proxy c source m arguments none
  rw [fullCourse]
  split
  · exact hadvised
  · rename_i dispatcher _
    apply (callbackOf_sound hbelow (fun _ _ => trivial) dispatcher proxy.configuration source
      m).bind
    intro chosen
    cases chosen with
    | error e => exact .pure _
    | ok _ => exact hadvised

/-- Calls by callbacks take their full course if the callbacks can rely on what they stand for. -/
theorem routeBySubclass_fullCourse (hbelow : below.Sound host) {dispatcher : DispatcherId}
    (hproxy : w.proxies[p]? = some proxy) (hc : w.configurations[proxy.configuration]? = some c)
    (hsource : w.sources[c.source]? = some source)
    (hdispatch : proxy.dispatch = .subclass dispatcher)
    (hchosen : ∀ callback v,
      (callbackOf host below dispatcher proxy.configuration source m).run w =
        some (.ok callback, v) →
      ∃ c' type, v.configurations[proxy.configuration]? = some c' ∧ c.Later c' ∧
        source.type = some type ∧ callback.Backed c' source type m.key ∧
        callback.isOwn = false) :
    Alike ((fullCourse host below p proxy c source m arguments).run w)
      ((routeBySubclass host below dispatcher p m arguments).run w) := by
  rw [fullCourse, routeBySubclass, withProxy_run hproxy hc hsource, hdispatch]
  refine Alike.bind_same fun chosen v hrun => ?_
  rcases chosen with e | callback
  · exact .refl _
  · obtain ⟨c', type, hc', hlater, htype, hbacked, hother⟩ := hchosen callback v hrun
    have halike : Alike ((perform host below callback p proxy c' source m arguments).run v) _ :=
      perform_alike hbelow hc' htype hbacked hother
    dsimp only
    rw [invokeAdvised_congr hlater, perform_congr hlater]
    exact halike.symm

/-- An ordinary call that its proxy takes on comes out alike with its full course. -/
theorem invoke_fullCourse {identity : MethodKey → Prop} {depth : Nat}
    (hhost : host.Proper identity True) (hw : w.Visited host identity)
    (hparts : w.parts? p = some (proxy, c, source)) (hregular : m.kind = .regular)
    (hkey : ¬ identity m.key)
    (haccepts : proxy.Accepts m) :
    Alike ((fullCourse host (answer host depth) p proxy c source m arguments).run w)
      ((invoke host (answer host depth) p m arguments).run w) := by
  have hbelow := answer_sound host depth
  obtain ⟨hproxy, hc, hsource⟩ := World.parts?_eq_some.mp hparts
  obtain ⟨line, hrun⟩ := invoke_run host (answer host depth) hproxy m arguments
  have hlogged : (w.record (.logged line)).Visited host identity :=
    hw.turn (.recorded (e := .logged line))
  have hline : Alike ((fullCourse host (answer host depth) p proxy c source m arguments).run w)
      ((fullCourse host (answer host depth) p proxy c source m arguments).run
        (w.record (.logged line))) :=
    Sound.alike (fullCourse_sound hbelow) (World.alike_record_line w line)
  rw [hrun]
  refine hline.trans ?_
  cases hdispatch : proxy.dispatch with
  | contracts d =>
      have hleaves : m.isOwn d.equalsDefined d.hashDefined = false := by
        simp [MethodSignature.isOwn, hregular]
      have hours : ¬(m.kind = .regular ∧ m.declaringType.isRoot = false ∧
          proxy.isInstanceOf m.declaringType = false) := by
        rintro ⟨_, hroot, hforeign⟩
        rcases haccepts d hdispatch with hdeclared | hinstance
        · rw [hroot] at hdeclared
          cases hdeclared
        · rw [hforeign] at hinstance
          cases hinstance
      have hroute := routeByContracts_advised host (answer host depth)
        (w := w.record (.logged line)) hproxy hc hsource hleaves hours arguments
      rw [fullCourse, hdispatch]
      dsimp only
      rw [hroute]
      exact .refl _
  | subclass dispatcher =>
      have hparts' : (w.record (.logged line)).parts? p = some (proxy, c, source) := hparts
      have hnamed : m.kind ≠ .regular → identity m.key := fun hkind => absurd hregular hkind
      refine routeBySubclass_fullCourse hbelow hproxy hc hsource hdispatch ?_
      intro callback v hchosen
      obtain ⟨c', hlater, hknown⟩ := callbackOf_chosen (answer_accord hhost depth)
        ⟨hlogged, trivial⟩ hparts' hdispatch hnamed hchosen
      obtain ⟨type, htype, hbacked⟩ := hknown.backed
      exact ⟨c', type, hknown.configuration, hlater, htype, hbacked,
        Bool.eq_false_iff.mpr fun hown => hkey (hknown.own hown)⟩

/-- Settling a chain fails only where building it does. -/
theorem chainFor_error {id : ConfigurationId} {target : Option TypeInfo}
    {u v : World κ σ ν} {e : AopError}
    (hc : u.configurations[id]? = some c)
    (h : (chainFor host below id m target).run u = some (.error e, v)) :
    (buildChain host below c m target).run u = some (.error e, v) := by
  by_cases hfrozen : c.frozen = true
  · rw [chainFor_frozen hc hfrozen, cachedOr, get_bind_run] at h
    rcases hcache : (u.cache? (.ofConfiguration id)).bind (·.find? (.of m target)) with _ | chain
    · simp only [hcache] at h
      obtain ⟨built, x, hbuilt, h⟩ := run_bind_eq_some.mp h
      rcases built with e' | chain
      · cases h
        exact hbuilt
      · cases h
    · simp only [hcache] at h
      cases h
  · rw [chainFor_mutable hc (by simpa using hfrozen)] at h
    exact h

end Courses

end Run

/-- What a call went through that had a chain. -/
structure Passage (κ σ ν : Type) where
  /-- The configuration that was in force. -/
  configuration : Configuration κ
  /-- The chain that was settled from it. -/
  chain : Chain κ
  /-- The world in which the chain was settled. -/
  first : World κ σ ν
  /-- The world in which the chain had run and the target was given back. -/
  last : World κ σ ν

section Told

open Run

variable {κ σ ν : Type}

/-- A proxy takes a call on: by contracts at once, by callbacks when the one of the method is chosen.
-/
inductive TakenOn (host : Host κ σ ν) (below : Handler κ σ ν) (proxy : Proxy) (source : Source κ)
    (m : MethodSignature) (w : World κ σ ν) : World κ σ ν → Prop where
  | contracts {d : ContractDispatcher} (dispatch : proxy.dispatch = .contracts d) :
      TakenOn host below proxy source m w w
  | callbacks {dispatcher : DispatcherId} {callback : Callback κ} {u : World κ σ ν}
      (dispatch : proxy.dispatch = .subclass dispatcher)
      (chosen : (callbackOf host below dispatcher proxy.configuration source m).run w =
        some (.ok callback, u)) : TakenOn host below proxy source m w u

/-- The course of a call of an ordinary method: what it went through, how it ended and in which world.
-/
inductive Course (host : Host κ σ ν) (identity : MethodKey → Prop) (depth : Nat) (p : ProxyId)
    (proxy : Proxy) (source : Source κ) (m : MethodSignature) (arguments : List Value)
    (w : World κ σ ν) : Option (Passage κ σ ν) → Result → World κ σ ν → Prop where
  /-- The method was refused as unsupported: it belongs to no type of the proxy. -/
  | refused {d : ContractDispatcher} {w' : World κ σ ν} (byContracts : proxy.dispatch = .contracts d)
      (foreign : m.declaringType.isRoot = false ∧ proxy.isInstanceOf m.declaringType = false)
      (only : w.Alike w') :
      Course host identity depth p proxy source m arguments w none
        (.error (.unsupportedMethod m.text)) w'
  /-- No callback could be chosen, for the chain could not be built from the advisors in force. -/
  | unchosen {dispatcher : DispatcherId} {c : Configuration κ} {e : AopError} {x w' : World κ σ ν}
      (byCallbacks : proxy.dispatch = .subclass dispatcher)
      (inForce : w.configurations[proxy.configuration]? = some c)
      (failed : (buildChain host (answer host depth) c m source.type).run w = some (.error e, x))
      (ends : x.Alike w') :
      Course host identity depth p proxy source m arguments w none (.error e) w'
  /-- The call was taken on, and then its chain could not be built. -/
  | unbuilt {c : Configuration κ} {e : AopError} {u x w' : World κ σ ν}
      (takenOn : TakenOn host (answer host depth) proxy source m w u)
      (visited : u.Visited host identity)
      (inForce : u.configurations[proxy.configuration]? = some c)
      (failed : (buildChain host (answer host depth) c m source.type).run
        (u.exposing c.flags.exposeProxy p) = some (.error e, x))
      (ends : (x.restoring c.flags.exposeProxy u.current).Alike w') :
      Course host identity depth p proxy source m arguments w none (.error e) w'
  /-- The call was taken on, its chain was settled, and the chain ran. -/
  | ran {c : Configuration κ} {chain : Chain κ} {result : Result} {u v x w' : World κ σ ν}
      (takenOn : TakenOn host (answer host depth) proxy source m w u)
      (visited : u.Visited host identity)
      (inForce : u.configurations[proxy.configuration]? = some c)
      (settling : (chainFor host (answer host depth) proxy.configuration m source.type).run
        (u.exposing c.flags.exposeProxy p) = some (.ok chain, v))
      (settled : v.Visited host identity)
      (running : (runSettled host (answer host depth) p proxy c.source source m arguments chain).run
        v = some (result, x))
      (ends : (x.restoring c.flags.exposeProxy u.current).Alike w') :
      Course host identity depth p proxy source m arguments w (some ⟨c, chain, v, x⟩) result w'

variable {host : Host κ σ ν} {identity : MethodKey → Prop} {depth : Nat} {p : ProxyId} {proxy : Proxy}
  {c : Configuration κ} {source : Source κ} {m : MethodSignature} {arguments : List Value}
  {w w' u : World κ σ ν} {result : Result}

theorem TakenOn.leads (h : TakenOn host (answer host depth) proxy source m w u) :
    w.Leads host (fun _ => True) u := by
  cases h with
  | contracts _ => exact .refl w
  | callbacks _ chosen =>
      exact (callbackOf_sound (answer_sound host depth) (fun _ _ => trivial) _ proxy.configuration
        source m w (Nat.zero_le _)).leads chosen

theorem Course.running {passage : Passage κ σ ν}
    (h : Course host identity depth p proxy source m arguments w (some passage) result w') :
    (runSettled host (answer host depth) p proxy passage.configuration.source source m arguments
      passage.chain).run passage.first = some (result, passage.last) := by
  cases h with
  | ran _ _ _ _ _ running _ => exact running

/-- A call that gives a value went through a chain. -/
theorem Course.passage_of_ok {taken : Option (Passage κ σ ν)} {value : Option Value}
    (h : Course host identity depth p proxy source m arguments w taken (.ok value) w') :
    ∃ passage, taken = some passage := by
  cases h with
  | ran => exact ⟨_, rfl⟩

/-- A call that is taken on settles its chain and runs it. -/
theorem TakenOn.course (hhost : host.Proper identity True)
    (htaken : TakenOn host (answer host depth) proxy source m w u) (hu : u.Visited host identity)
    (hc : u.configurations[proxy.configuration]? = some c)
    (h : (invokeAdvised host (answer host depth) p proxy c source m arguments none).run u =
      some (result, w')) {v : World κ σ ν} (hend : w'.Alike v) :
    ∃ taken, Course host identity depth p proxy source m arguments w taken result v := by
  rw [invokeAdvised_eq] at h
  obtain ⟨y, hbody, rfl⟩ := whileExposed_eq_some h
  obtain ⟨settled, x, hsettled, hrun⟩ := run_bind_eq_some.mp hbody
  have hexposed : (u.exposing c.flags.exposeProxy p).configurations[proxy.configuration]? =
      some c := by
    rw [World.configurations_exposing]
    exact hc
  rcases settled with e | chain
  · cases hrun
    exact ⟨none, .unbuilt htaken hu hc (chainFor_error hexposed hsettled) hend⟩
  · have hx := ((chainFor_agree (answer_accord hhost depth) proxy.configuration m source.type _
      ⟨hu.exposing c.flags.exposeProxy p, trivial⟩).ends hsettled).visited
    exact ⟨some _, .ran htaken hu hc hsettled hx hrun hend⟩

/-- Every call of an ordinary method, whose key is none of an identity method, takes such a course. -/
theorem invoke_course (hhost : host.Proper identity True) (hw : w.Visited host identity)
    (hparts : w.parts? p = some (proxy, c, source)) (hregular : m.kind = .regular)
    (hkey : ¬ identity m.key)
    (h : (invoke host (answer host depth) p m arguments).run w = some (result, w')) :
    ∃ taken, Course host identity depth p proxy source m arguments w taken result w' := by
  obtain ⟨hproxy, hc, hsource⟩ := World.parts?_eq_some.mp hparts
  by_cases haccepts : proxy.Accepts m
  · have hfull : Alike ((fullCourse host (answer host depth) p proxy c source m arguments).run w) _ :=
      invoke_fullCourse hhost hw hparts hregular hkey haccepts
    rw [h] at hfull
    obtain ⟨y, hcourse, hend⟩ := hfull.eq_some
    rw [fullCourse] at hcourse
    rcases hdispatch : proxy.dispatch with d | dispatcher
    · simp only [hdispatch] at hcourse
      exact (TakenOn.contracts hdispatch).course hhost hw hc hcourse hend
    · simp only [hdispatch] at hcourse
      obtain ⟨chosen, u, hchosen, hcourse⟩ := run_bind_eq_some.mp hcourse
      rcases chosen with e | callback
      · cases hcourse
        obtain ⟨d, hd, hfailed⟩ := callbackOf_error hchosen
        obtain ⟨d', hd', hmade⟩ := hw.orderly.madeFor hparts hdispatch
        obtain rfl : d = d' := Option.some.inj (hd.symm.trans hd')
        rw [← hmade.1] at hfailed
        exact ⟨none, .unchosen hdispatch hc (chainFor_error hc hfailed) hend⟩
      · have haccord := answer_accord hhost depth
        have hnamed : m.kind ≠ .regular → identity m.key := fun hkind => absurd hregular hkind
        have hu := ((callbackOf_agreeAt haccord ⟨hw, trivial⟩ hparts hdispatch hnamed).ends
          hchosen).visited
        obtain ⟨c', hlater, hknown⟩ := callbackOf_chosen haccord ⟨hw, trivial⟩ hparts hdispatch
          hnamed hchosen
        dsimp only at hcourse
        rw [invokeAdvised_congr hlater] at hcourse
        exact (TakenOn.callbacks hdispatch hchosen).course hhost hu hknown.configuration hcourse hend
  · obtain ⟨d, hdispatch, hforeign⟩ : ∃ d, proxy.dispatch = .contracts d ∧
        m.declaringType.isRoot = false ∧ proxy.isInstanceOf m.declaringType = false := by
      simpa [Proxy.Accepts] using haccepts
    obtain ⟨line, hrun⟩ := invoke_run host (answer host depth) hproxy m arguments
    rw [hrun, hdispatch] at h
    dsimp only at h
    have hlogged : (w.record (.logged line)).proxies[p]? = some proxy := hproxy
    rw [routeByContracts_refused host (answer host depth) hlogged hc hsource hregular hforeign] at h
    cases h
    exact ⟨none, .refused hdispatch hforeign (World.alike_record_line w line)⟩

end Told

end Weaving
