import Weaving.Proofs.ChainsInForce
import Weaving.Proofs.ContractChecks
import Weaving.Proofs.Endings
import Weaving.Proofs.ServedCalls

/-
Calls of introduced methods.  The first introduction in a chain that takes part in a call and covers
its method has the call served by its delegate; the target, though taken, is not visited, and
nothing further in runs.  If there is none, the introductions make no difference.
-/
namespace Weaving

variable {κ σ ν : Type}

namespace Run

variable {host : Host κ σ ν} {below : Handler κ σ ν} {p : ProxyId} {proxy : Proxy} {id : SourceId}
  {source : Source κ} {m : MethodSignature} {arguments : List Value} {chain : Chain κ}
  {target : Option TargetId} {w w' : World κ σ ν} {result : Result}

/-- Where the target serves, the client gets the same as from a call that went without
introductions, provided that the target comes to the same and that giving it back does. -/
theorem Answered.without_introductions {last last' : List Value} {own result' : Result}
    {given : Except AopError Unit} {id' : SourceId} {source' : Source κ} {server : Server}
    {u u' : World κ σ ν}
    (h : Answered host below p proxy id source m arguments chain w target .target last own given
      result w')
    (h' : Answered host below p proxy id' source' m arguments chain.withoutIntroductions u target
      server last' own given result' u') :
    server = .target ∧ result' = result ∧
      (chain.IntroducesOrPasses host m → last' = last) := by
  obtain rfl : server = .target :=
    h'.meets.target_of_none fun _ => Chain.isIntroduction_of_mem_withoutIntroductions
  refine ⟨rfl, h.same h', fun hchain => ?_⟩
  rw [h.meets.keeps hchain, h'.meets.keeps hchain.withoutIntroductions]

/-- Introduced methods are served by the first introduction that takes part and covers them.
Whatever chain of introductions and forwarding advice a call runs, on a proxy of either kind, it
visits nobody but that introduction's delegate, once, and enters nothing further in; or, if there is
none, nobody but the target.  The client gets what is made of that one's own result, unless the
source fails to give a target to begin with or to take it back in the end.  Where it is the target
that serves, the call goes as it goes without the introductions. -/
theorem introduced_methods_served (host : Host κ σ ν) (identity : MethodKey → Prop)
    (hhost : host.Proper identity True) (depth : Nat) :
    (∀ (p : ProxyId) (proxy : Proxy) (id : SourceId) (source : Source κ) (m : MethodSignature)
        (arguments : List Value) (chain : Chain κ) (w w' : World κ σ ν) (result : Result),
      chain.IntroducesOrForwards host m →
      (runSettled host (answer host depth) p proxy id source m arguments chain).run w =
        some (result, w') →
      Responds host (answer host depth) p proxy id source m arguments chain w result w') ∧
    (∀ (p : ProxyId) (proxy : Proxy) (c : Configuration κ) (source : Source κ)
        (m : MethodSignature) (arguments : List Value) (w : World κ σ ν),
      w.Visited host identity → w.parts? p = some (proxy, c, source) →
      m.kind = .regular → ¬ identity m.key → proxy.Accepts m →
      (∀ (result : Result) (w' : World κ σ ν),
        (invoke host (answer host depth) p m arguments).run w = some (result, w') →
        ∃ taken, Course host identity depth p proxy source m arguments w taken result w' ∧
          ∀ passage, taken = some passage → passage.chain.IntroducesOrForwards host m →
            Responds host (answer host depth) p proxy c.source source m arguments passage.chain
              passage.first result passage.last) ∧
      ∀ may : Request κ σ ν → Prop, host.Answered (answer host depth) may →
        ∃ result w', (invoke host (answer host depth) p m arguments).run w =
          some (result, w')) ∧
    (∀ (m : MethodSignature) (type : TypeInfo) (chain : Chain κ) (arguments last : List Value)
        (server : Server), Meets host m type chain 0 arguments server last →
      (∀ position d, server = .delegate position d →
        ∃ entry, chain[position]? = some entry ∧ entry.Covers m d ∧
          entry.admits m type last = true) ∧
      (∀ k entry d, chain[k]? = some entry → entry.Covers m d → server.ComesFrom (k + 1) →
        ∃ arguments', entry.admits m type arguments' = false ∧
          (chain.IntroducesOrPasses host m → arguments' = arguments)) ∧
      (chain.IntroducesOrPasses host m → last = arguments)) ∧
    ∀ (p : ProxyId) (proxy : Proxy) (id : SourceId) (source : Source κ) (m : MethodSignature)
      (arguments : List Value) (chain : Chain κ) (w w' : World κ σ ν) (target : Option TargetId)
      (last : List Value) (own : Result) (given : Except AopError Unit) (result : Result),
      Answered host (answer host depth) p proxy id source m arguments chain w target .target last
        own given result w' →
      Meets host m (Chain.effectiveType m source.type) chain.withoutIntroductions 0 arguments
        .target last ∧
      ∀ (id' : SourceId) (source' : Source κ) (u u' : World κ σ ν) (server : Server)
        (last' : List Value) (result' : Result),
        Answered host (answer host depth) p proxy id' source' m arguments
          chain.withoutIntroductions u target server last' own given result' u' →
        server = .target ∧ result' = result ∧
          (chain.IntroducesOrPasses host m → last' = last) := by
  refine ⟨?_, ?_, ?_, ?_⟩
  · intro p proxy id source m arguments chain w w' result hchain h
    exact runSettled_responds (answer_sound host depth) hchain h
  · intro p proxy c source m arguments w hw hparts hregular hkey haccepts
    refine ⟨fun result w' h => ?_, fun may hanswered => ?_⟩
    · have hc := (World.parts?_eq_some.mp hparts).2.1
      obtain ⟨taken, hcourse⟩ := invoke_course hhost hw hparts hregular hkey h
      refine ⟨taken, hcourse, fun passage htaken hchain => ?_⟩
      subst htaken
      exact runSettled_responds (answer_sound host depth) hchain (hcourse.runs hhost hc)
    · exact invoke_ends hhost hanswered hw hparts hregular hkey haccepts arguments
  · intro m type chain arguments last server hmeets
    refine ⟨fun position d hserver => ?_, fun k entry d hentry hcovers hearlier => ?_, hmeets.keeps⟩
    · subst hserver
      exact hmeets.served_covers
    · exact hmeets.earlier_rejects hentry hcovers ((Nat.zero_add k).symm ▸ hearlier)
  · intro p proxy id source m arguments chain w w' target last own given result h
    refine ⟨h.meets.without_introductions 0, fun id' source' u u' server last' result' h' => ?_⟩
    exact h.without_introductions h'

section Mixing

/-- Logging, and two introductions of one contract. -/
def mixingAdvisors : List (Advisor Unit) :=
  [.unconditional ⟨"log", .around ⟨none, .logging true⟩⟩,
    .delegating "first" 0 1 [auditedContract] .all,
    .delegating "second" 1 0 [auditedContract] .all]

def mixingChain : Chain Unit :=
  [.settled ⟨none, .logging true⟩, .settled ⟨some 0, .delegate 1 [auditedContract]⟩,
    .settled ⟨some 1, .delegate 0 [auditedContract]⟩]

/-- Makes a target, a delegate, and a proxy with that advice. -/
def mixingSetup : Code Unit Unit Unit Unit := do
  let target ← Code.ask (.newTarget servingType ())
  let _ ← Code.ask (.newTarget auditedContract ())
  let source ← Code.ask (.newSource (.singleton target servingType))
  let _ ← Code.ask (.makeProxy { source := some source, advisors := mixingAdvisors })

def mixingWorld : World Unit Unit Unit := worldAfter fluentHost 1 mixingSetup (.initial ())

theorem auditMethod_not_identity : ¬ identityKeys auditMethod.key := by
  simp [identityKeys, auditMethod, auditedContract, MethodSignature.key, MethodSignature.equals,
    MethodSignature.hashCode, MethodSignature.finalizer]

/-- On the way through that chain a call meets the first introduction's delegate. -/
theorem mixingChain_meets {type : TypeInfo} {arguments last : List Value} {server : Server}
    (h : Meets fluentHost auditMethod type mixingChain 0 arguments server last) :
    server = .delegate 1 1 := by
  cases h with
  | skipped rejects later => cases rejects
  | passed admits introduces other later => cases introduces
  | served admits covers => cases covers.isIntroduction
  | forwarded admits other keeps later =>
      cases later with
      | skipped rejects later => cases rejects
      | passed admits introduces other later => exact absurd ⟨_, rfl, rfl⟩ (other 1)
      | forwarded admits other keeps later => cases other
      | served admits covers =>
          obtain ⟨interfaces, haction, _⟩ := covers
          cases haction
          rfl

/-- A call on that proxy runs that chain. -/
theorem mixing_passage {proxy : Proxy} {c : Configuration Unit} {source : Source Unit}
    {result : Result} {w' : World Unit Unit Unit} {passage : Passage Unit Unit Unit}
    (hparts : mixingWorld.parts? 0 = some (proxy, c, source))
    (h : Course fluentHost identityKeys 1 0 proxy source auditMethod [] mixingWorld (some passage)
      result w') : passage.chain = mixingChain := by
  cases hparts
  cases h with
  | ran takenOn visited inForce settling settled running ends =>
      cases takenOn with
      | callbacks dispatch chosen => cases dispatch
      | contracts dispatch =>
          cases inForce
          cases settling
          rfl

/-- The first introduction's delegate returns itself, and the client gets the proxy. -/
theorem introduced_methods_served_mixing :
    ∃ proxy c source w', mixingWorld.Visited fluentHost identityKeys ∧
      mixingWorld.parts? 0 = some (proxy, c, source) ∧ proxy.Accepts auditMethod ∧
      (invoke fluentHost (answer fluentHost 1) 0 auditMethod []).run mixingWorld =
        some (.ok (some (.proxy 0)), w') ∧
      mixingChain.IntroducesOrPasses fluentHost auditMethod ∧
      ∃ passage, Course fluentHost identityKeys 1 0 proxy source auditMethod [] mixingWorld
          (some passage) (.ok (some (.proxy 0))) w' ∧
        passage.chain = mixingChain ∧
        ∃ target last own given, Answered fluentHost (answer fluentHost 1) 0 proxy c.source source
          auditMethod [] mixingChain passage.first target (.delegate 1 1) last own given
          (.ok (some (.proxy 0))) passage.last := by
  have hvisited : mixingWorld.Visited fluentHost identityKeys := by
    refine worldAfter_visited fluentHost_proper ?_ (.initial ())
    exact ⟨trivial, fun _ => ⟨trivial, fun _ => ⟨trivial, fun _ => ⟨trivial, fun _ => trivial⟩⟩⟩⟩
  have hfacts : (mixingWorld.parts? 0).map (·.1.isInstanceOf auditedContract) = some true := by
    decide +kernel
  obtain ⟨⟨proxy, c, source⟩, hparts, haudited⟩ := Option.map_eq_some_iff.mp hfacts
  have haccepts : proxy.Accepts auditMethod := fun _ _ => .inr haudited
  have hinvoked : (invoke fluentHost (answer fluentHost 1) 0 auditMethod []).run mixingWorld =
      some (.ok (some (.proxy 0)), _) := run_eq_leaves (by decide +kernel)
  have hchain : mixingChain.IntroducesOrPasses fluentHost auditMethod := by
    refine List.forall_mem_cons.mpr ⟨.inr trivial, ?_⟩
    exact List.forall_mem_cons.mpr ⟨.inl rfl, List.forall_mem_singleton.mpr (.inl rfl)⟩
  obtain ⟨_, hcalls, _⟩ :=
    introduced_methods_served fluentHost identityKeys fluentHost_proper 1
  obtain ⟨hresponds, _⟩ := hcalls 0 proxy c source auditMethod [] mixingWorld hvisited hparts rfl
    auditMethod_not_identity haccepts
  obtain ⟨taken, hcourse, hresponds⟩ := hresponds _ _ hinvoked
  obtain ⟨passage, rfl⟩ := hcourse.passage_of_ok
  have hmixing : passage.chain = mixingChain := mixing_passage hparts hcourse
  have hresponds := hresponds passage rfl (hmixing ▸ hchain.forwards)
  rw [hmixing] at hresponds
  refine ⟨proxy, c, source, _, hvisited, hparts, haccepts, hinvoked, hchain, passage, hcourse,
    hmixing, ?_⟩
  cases hresponds with
  | @answered _ server _ _ _ _ _ answered =>
      obtain rfl := mixingChain_meets answered.meets
      exact ⟨_, _, _, _, answered⟩

def goneError : AopError := .targetUnavailable "service" "gone"

/-- User code whose source, asked for a target, answers this, and cannot take anything back. -/
def goneHost (answered : Except AopError (Option TargetId)) : Host Unit Unit Unit :=
  { fluentHost with
    acquire := fun _ => return answered
    release := fun _ _ => return .error goneError }

/-- Makes a delegate, a target, and a proxy that introduces the delegate's contract to targets of
that source. -/
def goneSetup : Code Unit Unit Unit Unit := do
  let delegate ← Code.ask (.newTarget auditedContract ())
  let _ ← Code.ask (.newTarget servingType ())
  let source ← Code.ask (.newSource
    (.custom { name := "service", type := some servingType, isStatic := false } ()))
  let _ ← Code.ask (.makeProxy
    { source := some source, advisors := [.delegating "audit" 0 delegate [auditedContract] .all] })

def goneWorld (answered : Except AopError (Option TargetId)) : World Unit Unit Unit :=
  worldAfter (goneHost answered) 1 goneSetup (.initial ())

/-- The call of an introduced method, on a proxy that takes it on, through a chain that is nothing
but the introduction, fails after reaching this. -/
def GoneFails (answered : Except AopError (Option TargetId)) (reached : List Act) : Prop :=
  ∃ proxy c source, (goneWorld answered).parts? 0 = some (proxy, c, source) ∧
    proxy.Accepts auditMethod ∧ auditMethod.kind = .regular ∧ ¬ identityKeys auditMethod.key ∧
    (∃ v, (chainFor (goneHost answered) (answer (goneHost answered) 1) proxy.configuration
      auditMethod source.type).run (goneWorld answered) =
        some (.ok [.settled ⟨some 0, .delegate 0 [auditedContract]⟩], v)) ∧
    AtCall.isIntroduced [auditedContract] auditMethod = true ∧
    ((invoke (goneHost answered) (answer (goneHost answered) 1) 0 auditMethod []).run
      (goneWorld answered)).map (fun ended =>
        (ended.1.isOk, (ended.2.courseOf 0).filter Act.isReaching)) = some (false, reached)

/-- Without a target the delegate is not visited, and the value that it returns is lost where the
target cannot be given back. -/
theorem introduced_method_unserved :
    GoneFails (.error goneError) [] ∧ GoneFails (.ok (some 1)) [.reached 0 0 [] none] := by
  constructor
  · have haccepts : ((goneWorld (.error goneError)).parts? 0).map
        (·.1.isInstanceOf auditedContract) = some true := by decide +kernel
    exact ⟨_, _, _, rfl, fun _ _ => .inr (Option.some.inj haccepts), rfl,
      auditMethod_not_identity, ⟨_, rfl⟩, rfl, by decide +kernel⟩
  · have haccepts : ((goneWorld (.ok (some 1))).parts? 0).map
        (·.1.isInstanceOf auditedContract) = some true := by decide +kernel
    exact ⟨_, _, _, rfl, fun _ _ => .inr (Option.some.inj haccepts), rfl,
      auditMethod_not_identity, ⟨_, rfl⟩, rfl, by decide +kernel⟩

end Mixing

end Run

end Weaving
