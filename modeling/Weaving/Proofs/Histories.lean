import Weaving.Proofs.SoundAnswers

/-
What the history of a run tells.  The course of a call is the list of its acts in the order in which
they happened; whatever else happens only makes it longer.  In every reachable world the acts are
those of calls that have begun, and the parts of every proxy belong together.
-/
namespace Weaving

variable {κ σ ν α : Type} {host : Host κ σ ν} {allowed : Act → Prop}

/-- What an event adds to the course of a call. -/
def Event.actsOf (call : Nat) : Event ν → List Act
  | .act a => if a.call = call then [a] else []
  | _ => []

namespace World

/-- The acts of a call in the order in which they happened. -/
def courseOf (w : World κ σ ν) (call : Nat) : List Act :=
  w.trace.reverse.flatMap (·.actsOf call)

theorem courseOf_record (w : World κ σ ν) (e : Event ν) (call : Nat) :
    (w.record e).courseOf call = w.courseOf call ++ e.actsOf call := by
  simp [courseOf, record]

theorem courseOf_record_act (w : World κ σ ν) {a : Act} {call : Nat} (h : a.call = call) :
    (w.record (.act a)).courseOf call = w.courseOf call ++ [a] := by
  rw [courseOf_record, Event.actsOf, if_pos h]

/-- What is recorded as no act of a call leaves its course as it is. -/
theorem courseOf_record_other (w : World κ σ ν) {e : Event ν} {call : Nat}
    (h : ∀ a, e = .act a → a.call ≠ call) : (w.record e).courseOf call = w.courseOf call := by
  rw [courseOf_record]
  cases e with
  | act a => rw [Event.actsOf, if_neg (h a rfl), List.append_nil]
  | _ => exact List.append_nil _

/-- Log lines are no acts. -/
theorem Alike.courseOf {w w' : World κ σ ν} (h : w.Alike w') (call : Nat) :
    w'.courseOf call = w.courseOf call := by
  have hskip : ∀ trace : List (Event ν), trace.reverse.flatMap (·.actsOf call) =
      (trace.filter (!·.isLine)).reverse.flatMap (·.actsOf call) := by
    intro trace
    induction trace with
    | nil => rfl
    | cons e rest ih =>
        cases e with
        | logged line => simpa [Event.isLine, Event.actsOf] using ih
        | _ => simp [Event.isLine, ih]
  have hhappened : w'.trace.filter (!·.isLine) = w.trace.filter (!·.isLine) := h.2
  rw [World.courseOf, World.courseOf, hskip, hhappened, ← hskip]

theorem Step.course {w w' : World κ σ ν} (h : w.Step host allowed w') (call : Nat) :
    ∃ more, w'.courseOf call = w.courseOf call ++ more ∧
      ∀ a ∈ more, a.call = call ∧ allowed a ∧ call < w'.calls := by
  cases h with
  | @recorded e h =>
      refine ⟨e.actsOf call, courseOf_record w e call, fun a ha => ?_⟩
      cases e with
      | act b =>
          rw [Event.actsOf] at ha
          split at ha
          · rename_i hcall
            obtain rfl : a = b := List.mem_singleton.mp ha
            exact ⟨hcall, (h a rfl).1, hcall ▸ (h a rfl).2⟩
          · cases ha
      | _ => cases ha
  | _ => exact ⟨[], (List.append_nil _).symm, fun a ha => nomatch ha⟩

/-- Whatever happens adds acts that are allowed, of calls that have begun. -/
theorem Leads.course {w w' : World κ σ ν} (h : w.Leads host allowed w') (call : Nat) :
    ∃ more, w'.courseOf call = w.courseOf call ++ more ∧
      ∀ a ∈ more, a.call = call ∧ allowed a ∧ call < w'.calls := by
  induction h with
  | refl => exact ⟨[], (List.append_nil _).symm, fun a ha => nomatch ha⟩
  | tail _ step ih =>
      obtain ⟨more, hmore, hall⟩ := ih
      obtain ⟨last, hlast, hall'⟩ := step.course call
      refine ⟨more ++ last, ?_, fun a ha => ?_⟩
      · rw [hlast, hmore, List.append_assoc]
      · rcases List.mem_append.mp ha with ha | ha
        · obtain ⟨hcall, hallowed, hlt⟩ := hall a ha
          exact ⟨hcall, hallowed, Nat.lt_of_lt_of_le hlt step.later.calls⟩
        · exact hall' a ha

/-- Where no acts of a call are allowed, its course stays as it is. -/
theorem Leads.course_eq {w w' : World κ σ ν} (h : w.Leads host allowed w') {call : Nat}
    (hnone : ∀ a : Act, allowed a → a.call ≠ call) : w'.courseOf call = w.courseOf call := by
  obtain ⟨more, hmore, hall⟩ := h.course call
  have hnil : more = [] :=
    List.eq_nil_iff_forall_not_mem.mpr fun a ha => hnone a (hall a ha).2.1 (hall a ha).1
  rw [hmore, hnil, List.append_nil]

/-- What holds of every reachable world. -/
structure WellFormed (w : World κ σ ν) : Prop where
  numbered : ∀ call, w.calls ≤ call → w.courseOf call = []
  fits : ∀ (p : ProxyId) (proxy : Proxy), w.proxies[p]? = some proxy → w.Fits proxy

theorem Fits.later {w w' : World κ σ ν} {proxy : Proxy} (h : w.Fits proxy) (hlater : w.Later w') :
    w'.Fits proxy := by
  obtain ⟨c, source, hc, hsource, hparts⟩ := h
  obtain ⟨c', hc', hclater⟩ := hlater.configurations _ c hc
  obtain ⟨change, hsource'⟩ := hlater.sources _ source hsource
  refine ⟨c', source.mapPool change, hc', ?_, ?_⟩
  · rw [hclater.source]
    exact hsource'
  · cases hdispatch : proxy.dispatch with
    | contracts d =>
        rw [hdispatch] at hparts
        exact hparts
    | subclass dispatcher =>
        rw [hdispatch] at hparts
        obtain ⟨d, hd, hmade, hmem⟩ := hparts
        obtain ⟨d', hd', hdlater⟩ := hlater.dispatchers dispatcher d hd
        refine ⟨d', hd', hmade.later hdlater hclater change, ?_⟩
        rw [hdlater.targetType]
        exact hmem

theorem WellFormed.initial (memory : σ) : (World.initial memory : World κ σ ν).WellFormed where
  numbered _ _ := rfl
  fits _ _ h := nomatch h

theorem WellFormed.step {w w' : World κ σ ν} (hw : w.WellFormed) (h : w.Step host allowed w') :
    w'.WellFormed where
  numbered call hcall := by
    obtain ⟨more, hmore, hall⟩ := h.course call
    have hnone : more = [] := by
      refine List.eq_nil_iff_forall_not_mem.mpr fun a ha => ?_
      exact Nat.not_lt_of_le hcall (hall a ha).2.2
    rw [hmore, hnone, hw.numbered call (Nat.le_trans h.later.calls hcall), List.append_nil]
  fits p proxy hp := by
    have hkept : w.proxies[p]? = some proxy → w'.Fits proxy :=
      fun hold => (hw.fits p proxy hold).later h.later
    cases h with
    | @madeProxy made fits =>
        change (w.proxies.push made)[p]? = some proxy at hp
        rw [Array.getElem?_push] at hp
        split at hp
        · cases hp
          have hstep : w.Step host allowed { w with proxies := w.proxies.push proxy } :=
            .madeProxy fits
          exact fits.later hstep.later
        · exact hkept hp
    | _ => exact hkept hp

theorem Reachable.wellFormed {w : World κ σ ν} (h : Reachable host w) : w.WellFormed := by
  induction h with
  | initial memory => exact .initial memory
  | step _ change ih => exact ih.step change

theorem Reachable.leads {w w' : World κ σ ν} (h : Reachable host w)
    (hleads : w.Leads host allowed w') : Reachable host w' := by
  induction hleads with
  | refl => exact h
  | tail _ step ih => exact ih.step (step.mono fun _ _ => trivial)

end World

/-- A sound computation that may do nothing in a call leaves its course as it is. -/
theorem Run.Sound.course_eq {x : Run κ σ ν α} {begun : Nat} (hx : Run.Sound host allowed begun x)
    {a : α} {w w' : World κ σ ν} (h : x.run w = some (a, w')) (hbegun : begun ≤ w.calls)
    {call : Nat} (hnone : ∀ a : Act, allowed a → a.call ≠ call) :
    w'.courseOf call = w.courseOf call :=
  ((hx w hbegun).leads h).course_eq hnone

/-- Sound computations lead from reachable worlds to reachable ones. -/
theorem Run.Sound.reachable {x : Run κ σ ν α} (hx : Run.Sound host (fun _ => True) 0 x) {a : α}
    {w w' : World κ σ ν} (h : x.run w = some (a, w')) (hw : World.Reachable host w) :
    World.Reachable host w' :=
  hw.leads ((hx w (Nat.zero_le _)).leads h)

theorem Run.answer_leads {depth : Nat} {r : Request κ σ ν} {a : r.Answer} {w w' : World κ σ ν}
    (h : (Run.answer host depth r).run w = some (a, w')) : w.Leads host (fun _ => True) w' :=
  ((Run.answer_sound host depth r 0 w (Nat.zero_le _)).leads h).mono fun _ _ => trivial

/-- Everything that user code does are changes that a world can undergo. -/
theorem Run.code_leads {depth : Nat} {program : Code κ σ ν α} {a : α} {w w' : World κ σ ν}
    (h : Run.code host depth program w = some (a, w')) : w.Leads host (fun _ => True) w' := by
  have hsound : Run.Sound host (fun _ => True) 0 (program.run (Run.answer host depth)) :=
    .code (Run.answer_sound host depth) (fun _ _ => trivial) program
  exact (hsound w (Nat.zero_le _)).leads h

/-- The world that a program leaves, or the one it began in if it comes to no end. -/
def Run.worldAfter (host : Host κ σ ν) (depth : Nat) (program : Code κ σ ν α) (w : World κ σ ν) :
    World κ σ ν :=
  ((Run.code host depth program w).map (·.2)).getD w

theorem Run.worldAfter_leads (host : Host κ σ ν) (depth : Nat) (program : Code κ σ ν α)
    (w : World κ σ ν) : w.Leads host (fun _ => True) (Run.worldAfter host depth program w) := by
  rw [Run.worldAfter]
  cases h : Run.code host depth program w with
  | none => exact .refl w
  | some ended => exact Run.code_leads h

theorem Run.worldAfter_reachable {w : World κ σ ν} (hw : World.Reachable host w) (depth : Nat)
    (program : Code κ σ ν α) : World.Reachable host (Run.worldAfter host depth program w) :=
  hw.leads (worldAfter_leads host depth program w)

/-- The world that a run leaves, or the one it began in if it comes to no end. -/
def Run.leaves (x : Run κ σ ν α) (w : World κ σ ν) : World κ σ ν := ((x.run w).map (·.2)).getD w

/-- A run that is known to succeed with a value succeeds in the world that it leaves. -/
theorem Run.run_eq_leaves {ε : Type} {x : Run κ σ ν (Except ε α)} {w : World κ σ ν} {a : α}
    (h : (x.run w).map (·.1.toOption) = some (some a)) : x.run w = some (.ok a, x.leaves w) := by
  obtain ⟨⟨result, w'⟩, hended, hresult⟩ := Option.map_eq_some_iff.mp h
  rw [leaves, hended]
  rcases result with e | value
  · cases hresult
  · cases hresult
    rfl

/-- User code that does as little as it can: advice proceeds, targets return nothing. -/
def Host.idle : Host κ σ ν where
  around _ := .request AroundRequest.proceed
  before _ := return .ok ()
  afterReturning _ _ := return .ok ()
  afterThrowing _ _ := return .ok ()
  after _ := return .ok ()
  target _ _ _ _ := return .ok none
  make _ := return .ok 0
  acquire _ := return .ok none
  release _ _ := return .ok ()
  chain _ _ _ _ _ := return .ok []
  builder _ := return .ok []

end Weaving
