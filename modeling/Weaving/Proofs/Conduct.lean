import Weaving.Proofs.Borrowing
import Weaving.Proofs.Compounds

/-
What the engine makes of a world, as far as sources, targets and what is exposed are concerned.  A
run touches them in a few places only: it makes a target or a source, it takes a target from a source
and gives one back, and a call does both around everything else, with its proxy exposed perhaps.  A
relation between worlds that allows these, one after another, and everything that leaves sources and
what is exposed alone, therefore leads from the beginning of every run to its end.
-/
namespace Weaving

variable {κ σ ν α β : Type}

/-- A computation moves worlds only along a relation. -/
def Run.Moves (R : World κ σ ν → World κ σ ν → Prop) (x : Run κ σ ν α) : Prop :=
  ∀ ⦃w a w'⦄, x.run w = some (a, w') → R w w'

/-- A relation between worlds, one after another, that holds where no source changes and nothing else
is exposed. -/
structure World.Lasting (R : World κ σ ν → World κ σ ν → Prop) : Prop where
  trans : ∀ {u v w}, R u v → R v w → R u w
  aside : ∀ {w w' : World κ σ ν}, w'.sources = w.sources → w.targets.size ≤ w'.targets.size →
    w'.current = w.current → R w w'

namespace World.Lasting

open Run

variable {R : World κ σ ν → World κ σ ν → Prop}

theorem pure (h : Lasting R) (a : α) : Moves R (Pure.pure a : Run κ σ ν α) := by
  intro w b w' hrun
  cases hrun
  exact h.aside rfl (Nat.le_refl _) rfl

theorem bind (h : Lasting R) {x : Run κ σ ν α} {f : α → Run κ σ ν β}
    (hx : Moves R x) (hf : ∀ a, Moves R (f a)) : Moves R (x >>= f) := by
  intro w b w' hrun
  obtain ⟨a, v, hv, hw'⟩ := run_bind_eq_some.mp hrun
  exact h.trans (hx hv) (hf a hw')

/-- What a computation ends with does not matter. -/
theorem map (h : Lasting R) {x : Run κ σ ν α} (hx : Moves R x) (f : α → β) :
    Moves R (x >>= fun a => Pure.pure (f a)) :=
  h.bind hx fun a => h.pure (f a)

/-- Changing what is neither a source nor a target and is not exposed. -/
theorem change (h : Lasting R) {change : World κ σ ν → World κ σ ν}
    (same : ∀ w, (change w).sources = w.sources ∧ (change w).targets = w.targets ∧
      (change w).current = w.current) :
    Moves R (modify change : Run κ σ ν Unit) := by
  intro w _ w' hrun
  cases hrun
  obtain ⟨hsources, htargets, hcurrent⟩ := same w
  exact h.aside hsources (Nat.le_of_eq (congrArg Array.size htargets.symm)) hcurrent

/-- Changing what is neither a source nor a target and is not exposed, and telling what was there
before. -/
theorem exchange (h : Lasting R) {change : World κ σ ν → World κ σ ν}
    {read : World κ σ ν → α}
    (same : ∀ w, (change w).sources = w.sources ∧ (change w).targets = w.targets ∧
      (change w).current = w.current) :
    Moves R (get >>= fun u => set (change u) >>= fun _ => Pure.pure (read u) : Run κ σ ν α) := by
  intro w _ w' hrun
  cases hrun
  obtain ⟨hsources, htargets, hcurrent⟩ := same w
  exact h.aside hsources (Nat.le_of_eq (congrArg Array.size htargets.symm)) hcurrent

theorem record (h : Lasting R) (e : Event ν) :
    Moves R (Run.record e : Run κ σ ν Unit) :=
  h.change fun _ => ⟨rfl, rfl, rfl⟩

theorem log (h : Lasting R) (line : LogLine) :
    Moves R (Run.log line : Run κ σ ν Unit) :=
  h.record _

theorem trace (h : Lasting R) (message : String) :
    Moves R (Run.trace message : Run κ σ ν Unit) :=
  h.log _

theorem logAll (h : Lasting R) (lines : List LogLine) :
    Moves R (Run.logAll lines : Run κ σ ν Unit) := by
  induction lines with
  | nil => exact h.pure ()
  | cons line rest ih => exact h.bind (h.log line) fun _ => ih

theorem recordQuestions (h : Lasting R) (questions : List Question) :
    Moves R (Run.recordQuestions questions : Run κ σ ν Unit) := by
  induction questions with
  | nil => exact h.pure ()
  | cons q rest ih => exact h.bind (h.record _) fun _ => ih

theorem asking (h : Lasting R) (x : Asking α) :
    Moves R (Run.asking x : Run κ σ ν α) :=
  h.map (h.recordQuestions _) _

theorem composes (h : Lasting R) : Composes fun _ x => Moves R x where
  pure := h.pure
  bind := h.bind
  record := h.record

/-- Code that makes no other requests than it may. -/
theorem program (h : Lasting R) {below : Handler κ σ ν} {may : Request κ σ ν → Prop}
    (hbelow : ∀ r, may r → Moves R (below r)) {p : Code κ σ ν α} (hp : p.Asks may) :
    Moves R (p.run below) :=
  h.composes.program hbelow hp

end World.Lasting

open Run in
/-- A relation along which the engine moves worlds, given that what it asks of others does. -/
structure Conduct (host : Host κ σ ν) (below : Handler κ σ ν) (may : Request κ σ ν → Prop)
    (R : World κ σ ν → World κ σ ν → Prop) : Prop extends World.Lasting R where
  madeSource : ∀ (w : World κ σ ν) (s : Source κ), R w { w with sources := w.sources.push s }
  asks : host.Asks may
  requests : ∀ r, may r → Moves R (below r)
  acquired : ∀ id, Moves R (acquire host below id)
  released : ∀ id target, may (.release id target) → Moves R (release host below id target)
  /-- What a call takes it gives back, whatever it does in between. -/
  borrowed : ∀ (call : Nat) (id : SourceId) (source : Source κ) (m : MethodSignature)
    (body : Option TargetId → Run κ σ ν Result), (∀ target, Moves R (body target)) →
    Moves R (acquireFor host below call id >>= fun
      | .error e => pure (.error e)
      | .ok target => body target >>= releaseFor host below call id source target m)
  /-- A call that exposes its proxy exposes again what was exposed before. -/
  shown : ∀ {α : Type} (exposed : Bool) (p : ProxyId) {body : Run κ σ ν α}, Moves R body →
    Moves R (whileExposed exposed p body)

theorem Conduct.code {host : Host κ σ ν} {below : Handler κ σ ν} {may : Request κ σ ν → Prop}
    {R : World κ σ ν → World κ σ ν → Prop} (h : Conduct host below may R) {p : Code κ σ ν α}
    (hp : p.Asks may) : Run.Moves R (p.run below) :=
  h.program h.requests hp

namespace Run

variable {host : Host κ σ ν} {below : Handler κ σ ν} {may : Request κ σ ν → Prop}
  {R : World κ σ ν → World κ σ ν → Prop}

/-- Looking at the world moves nothing. -/
theorem get_bind_moves {f : World κ σ ν → Run κ σ ν β} (hf : ∀ w, Moves R (f w)) :
    Moves R (get >>= f) :=
  fun w _ _ hrun => hf w hrun

theorem callTarget_moves (h : Conduct host below may R) (target : TargetId) (m : MethodSignature)
    (arguments : List Value) : Moves R (callTarget host below target m arguments) := by
  refine get_bind_moves fun w => ?_
  split
  · exact h.code (h.asks.target _ _ _ _)
  · exact h.pure _

/-- What calls are put together from moves worlds only along the relation. -/
theorem comprises_moves (h : Conduct host below may R) :
    Comprises host below may fun _ x => Moves R x where
  toComposes := h.composes
  beginCall := h.exchange fun _ => ⟨rfl, rfl, rfl⟩
  asks := h.asks
  requests := h.requests
  callTarget := callTarget_moves h

section Chains

theorem buildFrom_moves (h : Conduct host below may R) (registry : AdapterRegistry κ)
    (advisors : List (Advisor κ)) (preFiltered : Bool) (m : MethodSignature)
    (target : Option TypeInfo) :
    Moves R (buildFrom registry advisors preFiltered m target : Run κ σ ν _) := by
  refine h.bind (h.asking _) fun built => ?_
  rcases built with e | chain
  · exact h.pure _
  · exact h.map (h.log _) _

theorem buildChain_moves (h : Conduct host below may R) (c : Configuration κ)
    (m : MethodSignature) (target : Option TypeInfo) :
    Moves R (buildChain host below c m target) := by
  rw [buildChain]
  split
  · exact buildFrom_moves h _ _ _ _ _
  · exact h.code (h.asks.chain _ _ _ _ _)

theorem mapCache_moves (h : Conduct host below may R) (ref : CacheRef)
    (change : ChainCache κ → ChainCache κ) :
    Moves R (modify (·.mapCache ref change) : Run κ σ ν Unit) := by
  cases ref with
  | ofConfiguration id => exact h.change fun _ => ⟨rfl, rfl, rfl⟩
  | standalone id => exact h.change fun _ => ⟨rfl, rfl, rfl⟩

theorem cachedOr_moves (h : Conduct host below may R) (ref : CacheRef) (m : MethodSignature)
    (target : Option TypeInfo) {build : Run κ σ ν (Except AopError (Chain κ))}
    (hbuild : Moves R build) : Moves R (cachedOr ref m target build) := by
  refine get_bind_moves fun w => ?_
  split
  · exact h.pure _
  · refine h.bind hbuild fun built => ?_
    rcases built with e | chain
    · exact h.pure _
    · refine h.bind (h.log _) fun _ => h.bind (mapCache_moves h ref _) fun _ => ?_
      exact get_bind_moves fun w => h.pure _

theorem chainFor_moves (h : Conduct host below may R) (id : ConfigurationId)
    (m : MethodSignature) (target : Option TypeInfo) :
    Moves R (chainFor host below id m target) := by
  refine get_bind_moves fun w => ?_
  split
  · exact h.pure _
  · split
    · exact cachedOr_moves h _ m target (buildChain_moves h _ m target)
    · exact buildChain_moves h _ m target

theorem chainsFor_moves (h : Conduct host below may R) (id : ConfigurationId)
    (target : Option TypeInfo) (methods : List MethodSignature) :
    Moves R (chainsFor host below id target methods) := by
  induction methods with
  | nil => exact h.pure _
  | cons m rest ih =>
      refine h.bind (chainFor_moves h id m target) fun found => ?_
      rcases found with e | chain
      · exact h.pure _
      · refine h.bind ih fun later => ?_
        rcases later with e | later
        · exact h.pure _
        · exact h.pure _

theorem precompute_moves (h : Conduct host below may R) (id : ConfigurationId) :
    Moves R (precompute host below id) := by
  refine get_bind_moves fun w => ?_
  split
  · exact h.pure _
  · split
    · exact chainsFor_moves h id _ _
    · exact h.pure _

end Chains

end Run

end Weaving
