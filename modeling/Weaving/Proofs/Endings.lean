import Weaving.Proofs.Conduct
import Weaving.Proofs.FullCourses
import Weaving.Proofs.ReturnedTargets

/-
Calls come to an end.  The engine itself never gets stuck: whatever it does is over at some time, as
long as the requests are answered that user code makes on the way.
-/
namespace Weaving

variable {κ σ ν α β : Type}

/-- A computation comes to an end in every world. -/
def Run.Ends (x : Run κ σ ν α) : Prop := ∀ w, (x.run w).isSome = true

/-- User code makes only requests that it may, and these are answered. -/
structure Host.Answered (host : Host κ σ ν) (below : Handler κ σ ν)
    (may : Request κ σ ν → Prop) : Prop where
  asks : host.Asks may
  answers : ∀ r, may r → Run.Ends (below r)

variable {host : Host κ σ ν} {below : Handler κ σ ν} {may : Request κ σ ν → Prop}

namespace Run

namespace Ends

theorem pure (a : α) : Ends (Pure.pure a : Run κ σ ν α) := fun _ => rfl

theorem bind {x : Run κ σ ν α} {f : α → Run κ σ ν β} (hx : Ends x) (hf : ∀ a, Ends (f a)) :
    Ends (x >>= f) := by
  intro w
  obtain ⟨⟨a, v⟩, hv⟩ := Option.isSome_iff_exists.mp (hx w)
  rw [run_bind_of_eq_some hv]
  exact hf a v

theorem get_bind {f : World κ σ ν → Run κ σ ν β} (hf : ∀ w, Ends (f w)) : Ends (get >>= f) :=
  fun w => hf w w

theorem change (change : World κ σ ν → World κ σ ν) :
    Ends (modify change : Run κ σ ν Unit) := fun _ => rfl

theorem record (e : Event ν) : Ends (Run.record e : Run κ σ ν Unit) := fun _ => rfl

theorem log (line : LogLine) : Ends (Run.log line : Run κ σ ν Unit) := fun _ => rfl

theorem trace (message : String) : Ends (Run.trace message : Run κ σ ν Unit) := fun _ => rfl

theorem asking (x : Asking α) : Ends (Run.asking x : Run κ σ ν α) := by
  have hquestions : ∀ questions, Ends (recordQuestions questions : Run κ σ ν Unit) := by
    intro questions w
    obtain ⟨v, hv, _⟩ := recordQuestions_run questions w
    rw [hv]
    rfl
  exact (hquestions _).bind fun _ => .pure _

theorem composes : Composes fun α (x : Run κ σ ν α) => Ends x where
  pure := pure
  bind := bind
  record := record

/-- Code comes to an end if its requests are answered. -/
theorem code (h : host.Answered below may) {p : Code κ σ ν α} (hp : p.Asks may) :
    Ends (p.run below) :=
  composes.program h.answers hp

end Ends

theorem callTarget_ends (h : host.Answered below may) (target : TargetId) (m : MethodSignature)
    (arguments : List Value) : Ends (callTarget host below target m arguments) := by
  refine .get_bind fun w => ?_
  split
  · exact .code h (h.asks.target _ _ _ _)
  · exact .pure _

theorem fillVacancy_ends (h : host.Answered below may) (id : SourceId) (factory : κ) :
    Ends (fillVacancy host below id factory) := by
  apply (Ends.code h (h.asks.make factory)).bind
  intro made
  rcases made with e | target
  · exact (Ends.change _).bind fun _ => .pure _
  · exact .pure _

theorem acquire_ends (h : host.Answered below may) (id : SourceId) :
    Ends (acquire host below id) := by
  refine .get_bind fun w => ?_
  split
  · exact .pure _
  · exact .pure _
  · exact .pure _
  · exact (Ends.code h (h.asks.make _)).bind fun _ => .pure _
  · split
    · exact .pure _
    · exact (Ends.change _).bind fun _ => .pure _
    · exact (Ends.change _).bind fun _ => fillVacancy_ends h _ _
  · exact .code h (h.asks.acquire _)

theorem release_ends (h : host.Answered below may) (id : SourceId) (target : TargetId) :
    Ends (release host below id target) := by
  refine .get_bind fun w => ?_
  split
  · exact (Ends.trace _).bind fun _ => .pure _
  · exact (Ends.change _).bind fun _ => .pure _
  · exact .code h (h.asks.release _ _)
  · exact .pure _

theorem buildChain_ends (h : host.Answered below may) (c : Configuration κ) (m : MethodSignature)
    (target : Option TypeInfo) : Ends (buildChain host below c m target) := by
  rw [buildChain]
  split
  · apply (Ends.asking _).bind
    intro built
    rcases built with e | chain
    · exact .pure _
    · exact (Ends.log _).bind fun _ => .pure _
  · exact .code h (h.asks.chain _ _ _ _ _)

theorem chainFor_ends (h : host.Answered below may) (id : ConfigurationId) (m : MethodSignature)
    (target : Option TypeInfo) : Ends (chainFor host below id m target) := by
  refine .get_bind fun w => ?_
  split
  · exact .pure _
  · rename_i c _
    have hbuild := buildChain_ends h c m target
    split
    · refine .get_bind fun u => ?_
      split
      · exact .pure _
      · apply hbuild.bind
        intro built
        rcases built with e | chain
        · exact .pure _
        · refine (Ends.log _).bind fun _ => (Ends.change _).bind fun _ => ?_
          exact .get_bind fun v => .pure _
    · exact hbuild

/-- What calls are put together from comes to an end. -/
theorem comprises_ends (h : host.Answered below may) :
    Comprises host below may fun _ x => Ends x where
  toComposes := Ends.composes
  beginCall := fun _ => rfl
  asks := h.asks
  requests := h.answers
  callTarget := callTarget_ends h

theorem runSettled_ends (h : host.Answered below may) (p : ProxyId) (proxy : Proxy) (id : SourceId)
    (source : Source κ) (m : MethodSignature) (arguments : List Value) (chain : Chain κ) :
    Ends (runSettled host below p proxy id source m arguments chain) :=
  runSettled_has (comprises_ends h) (acquire_ends h id) (release_ends h id) p proxy source m
    arguments chain

theorem invokeAdvised_ends (h : host.Answered below may) (p : ProxyId) (proxy : Proxy)
    (c : Configuration κ) (source : Source κ) (m : MethodSignature) (arguments : List Value) :
    Ends (invokeAdvised host below p proxy c source m arguments none) := by
  have hbody : Ends (settleChain host below proxy source m none >>=
      onceSettled host below p proxy c.source source m arguments) := by
    apply (chainFor_ends h proxy.configuration m source.type).bind
    intro settled
    rcases settled with e | chain
    · exact .pure _
    · exact runSettled_ends h p proxy c.source source m arguments chain
  intro w
  rw [invokeAdvised_eq, whileExposed_run, Option.isSome_map]
  exact hbody _

theorem accept_ends (h : host.Answered below may) (d : SubclassDispatcher κ)
    (id : ConfigurationId) (source : Source κ) (m : MethodSignature) :
    Ends (accept host below d id source m) := by
  cases hkeeps : d.keeps m with
  | true =>
      intro w
      obtain ⟨own, _, hrun⟩ := accept_kept host below hkeeps id source w
      rw [hrun]
      rfl
  | false =>
      rw [accept_leaves hkeeps]
      refine .get_bind fun w => ?_
      split
      · exact .pure _
      · apply (chainFor_ends h id m (some d.targetType)).bind
        intro settled
        rcases settled with e | chain
        · exact .pure _
        · exact .pure _

theorem callbackOf_ends (h : host.Answered below may) (dispatcher : DispatcherId)
    (id : ConfigurationId) (source : Source κ) (m : MethodSignature) :
    Ends (callbackOf host below dispatcher id source m) := by
  refine .get_bind fun w => ?_
  split
  · exact .pure _
  · rename_i d _
    split
    · exact .pure _
    · apply (accept_ends h d id source m).bind
      intro accepted
      rcases accepted with e | callback
      · exact .pure _
      · refine (Ends.trace _).bind fun _ => (Ends.change _).bind fun _ => ?_
        exact .get_bind fun v => .pure _

theorem fullCourse_ends (h : host.Answered below may) (p : ProxyId) (proxy : Proxy)
    (c : Configuration κ) (source : Source κ) (m : MethodSignature) (arguments : List Value) :
    Ends (fullCourse host below p proxy c source m arguments) := by
  have hadvised := invokeAdvised_ends h p proxy c source m arguments
  rw [fullCourse]
  split
  · exact hadvised
  · rename_i dispatcher _
    apply (callbackOf_ends h dispatcher proxy.configuration source m).bind
    intro chosen
    rcases chosen with e | callback
    · exact .pure _
    · exact hadvised

/-- An ordinary call that its proxy takes on comes to an end. -/
theorem invoke_ends {identity : MethodKey → Prop} {depth : Nat} {p : ProxyId} {proxy : Proxy}
    {c : Configuration κ} {source : Source κ} {m : MethodSignature} {w : World κ σ ν}
    (hhost : host.Proper identity True) (hanswered : host.Answered (answer host depth) may)
    (hw : w.Visited host identity) (hparts : w.parts? p = some (proxy, c, source))
    (hregular : m.kind = .regular) (hkey : ¬ identity m.key) (haccepts : proxy.Accepts m)
    (arguments : List Value) :
    ∃ result w', (invoke host (answer host depth) p m arguments).run w = some (result, w') := by
  have hfull := fullCourse_ends hanswered p proxy c source m arguments w
  obtain ⟨⟨result, v⟩, hrun⟩ := Option.isSome_iff_exists.mp hfull
  have halike : Alike
      ((fullCourse host (answer host depth) p proxy c source m arguments).run w)
      ((invoke host (answer host depth) p m arguments).run w) :=
    invoke_fullCourse hhost hw hparts hregular hkey haccepts
  rw [hrun] at halike
  obtain ⟨w', hinvoke, _⟩ := halike.symm.eq_some
  exact ⟨result, w', hinvoke⟩

end Run

end Weaving
