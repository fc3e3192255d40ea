import Weaving.Proofs.Histories

/-
Proceeding through a chain.  A cursor stands before a position of the chain.  Proceeding takes the
first entry from there on that admits the call as it is at that moment, and hands its interceptor
the cursor right after it; where no entry is left that admits the call, the target is reached.  So
nothing before a cursor ever runs through it, however often it is used.
-/
namespace Weaving

variable {κ σ ν : Type}

namespace JoinPoint

/-- The first entry from a position on that admits the call as it is now. -/
structure Takes (jp : JoinPoint κ) (chain : Chain κ) (i j : Nat) (entry : ChainEntry κ) :
    Prop where
  le : i ≤ j
  found : chain[j]? = some entry
  admitted : entry.admits jp.method jp.targetType jp.arguments = true
  first : ∀ k, i ≤ k → k < j → ∀ skipped, chain[k]? = some skipped →
    skipped.admits jp.method jp.targetType jp.arguments = false

/-- No entry from a position on admits the call as it is now. -/
def TakesNone (jp : JoinPoint κ) (chain : Chain κ) (i : Nat) : Prop :=
  ∀ k, i ≤ k → ∀ skipped, chain[k]? = some skipped →
    skipped.admits jp.method jp.targetType jp.arguments = false

/-- What a call does when it reaches its target. -/
def reaching (jp : JoinPoint κ) : List Act :=
  (jp.target.map fun t => .reached jp.call t jp.arguments (some .targetInvoked)).toList

theorem Takes.succ {jp : JoinPoint κ} {chain : Chain κ} {i j : Nat} {entry : ChainEntry κ}
    (h : jp.Takes chain i j entry) (hlt : i < j) : jp.Takes chain (i + 1) j entry :=
  ⟨hlt, h.found, h.admitted, fun k hk => h.first k (Nat.le_of_succ_le hk)⟩

theorem TakesNone.succ {jp : JoinPoint κ} {chain : Chain κ} {i : Nat} (h : jp.TakesNone chain i) :
    jp.TakesNone chain (i + 1) := fun k hk => h k (Nat.le_of_succ_le hk)

/-- Some entry is the first one to admit the call, or none does. -/
theorem takes_or_takesNone (jp : JoinPoint κ) (chain : Chain κ) (i : Nat) :
    (∃ j entry, jp.Takes chain i j entry) ∨ jp.TakesNone chain i := by
  induction hleft : chain.length - i generalizing i with
  | zero =>
      refine .inr fun k hk skipped hskipped => ?_
      have hlt : k < chain.length := (List.getElem?_eq_some_iff.mp hskipped).1
      omega
  | succ left ih =>
      have hlt : i < chain.length := by omega
      have hentry : chain[i]? = some chain[i] := List.getElem?_eq_getElem hlt
      cases hadmits : chain[i].admits jp.method jp.targetType jp.arguments with
      | true =>
          refine .inl ⟨i, chain[i], Nat.le_refl i, hentry, hadmits, fun k hk hk' => ?_⟩
          exact absurd hk (Nat.not_le_of_lt hk')
      | false =>
          have hself : ∀ skipped, chain[i]? = some skipped →
              skipped.admits jp.method jp.targetType jp.arguments = false := by
            intro skipped hskipped
            obtain rfl := Option.some.inj (hentry.symm.trans hskipped)
            exact hadmits
          rcases ih (i + 1) (by omega) with ⟨j, entry, htakes⟩ | hnone
          · refine .inl ⟨j, entry, Nat.le_of_succ_le htakes.le, htakes.found, htakes.admitted, ?_⟩
            intro k hk hkj
            rcases Nat.eq_or_lt_of_le hk with rfl | hk
            · exact hself
            · exact htakes.first k hk hkj
          · refine .inr fun k hk => ?_
            rcases Nat.eq_or_lt_of_le hk with rfl | hk
            · exact hself
            · exact hnone k hk

end JoinPoint

namespace AtCall

variable (host : Host κ σ ν) (below : Handler κ σ ν)

/-- Proceeds through a chain from a position. -/
def proceedAt (chain : Chain κ) (i : Nat) : AtCall κ σ ν Result :=
  translated i (proceedFrom host below (chain.drop i) i)

/-- Logs that the entries at so many positions from one on do not admit the call. -/
def reject : Nat → Nat → AtCall κ σ ν Unit
  | _, 0 => return ()
  | index, count + 1 => do
    log .trace ("Dynamic matcher rejected " ++ (← get).method.text ++ " at chain position "
      ++ toString index ++ ", skipping") []
    reject (index + 1) count

/-- Runs the interceptor at a position, given how the call proceeds from there. -/
def enter (entry : ChainEntry κ) (index : Nat) (proceed : AtCall κ σ ν Result) :
    AtCall κ σ ν Result := do
  enterPhase (.running index)
  let phase := (← get).phase
  act (.entered · index phase)
  settle (← intercept host below entry.interceptor.action (index + 1) proceed)

variable {host below}

theorem drop_eq_cons {chain : Chain κ} {i : Nat} {entry : ChainEntry κ}
    (h : chain[i]? = some entry) : chain.drop i = entry :: chain.drop (i + 1) := by
  obtain ⟨hlt, rfl⟩ := List.getElem?_eq_some_iff.mp h
  exact List.drop_eq_getElem_cons hlt

theorem get_bind_run {α : Type} (f : JoinPoint κ → AtCall κ σ ν α) (jp : JoinPoint κ) :
    (get >>= f).run jp = (f jp).run jp := rfl

theorem log_bind_run {α : Type} (level : Level) (message : String)
    (fields : List (String × String)) (next : AtCall κ σ ν α) (jp : JoinPoint κ) :
    (log level message fields >>= fun _ => next).run jp =
      (Run.log ⟨level, message, fields⟩ >>= fun _ => next.run jp) := by
  rw [StateT.run_bind]
  change ((Run.log _ >>= fun _ => pure ((), jp)) >>= fun p => next.run p.2) = _
  rw [bind_assoc]
  rfl

/-- An entry that does not admit the call is skipped, and nothing else changes. -/
theorem proceedFrom_skip {chain : Chain κ} {i : Nat} {entry : ChainEntry κ} {jp : JoinPoint κ}
    (hentry : chain[i]? = some entry)
    (hskip : entry.admits jp.method jp.targetType jp.arguments = false)
    {count : Nat} {next : AtCall κ σ ν Result}
    (hnext : (proceedFrom host below (chain.drop (i + 1)) (i + 1)).run jp =
      (reject (i + 1) count >>= fun _ => next).run jp) :
    (proceedFrom host below (chain.drop i) i).run jp =
      (reject i (count + 1) >>= fun _ => next).run jp := by
  rw [drop_eq_cons hentry, proceedFrom, get_bind_run, hskip]
  rw [reject, bind_assoc, get_bind_run, bind_assoc, log_bind_run, ← hnext]
  exact log_bind_run _ _ _ _ _

/-- Proceeding runs the first entry that admits the call. -/
theorem proceedFrom_takes {chain : Chain κ} {jp : JoinPoint κ} {entry : ChainEntry κ}
    {i j : Nat} (h : jp.Takes chain i j entry) :
    (proceedFrom host below (chain.drop i) i).run jp =
      (reject i (j - i) >>= fun _ =>
        enter host below entry j (proceedAt host below chain (j + 1))).run jp := by
  induction hleft : j - i generalizing i with
  | zero =>
      obtain rfl : i = j := Nat.le_antisymm h.le (Nat.le_of_sub_eq_zero hleft)
      rw [drop_eq_cons h.found, proceedFrom, get_bind_run, h.admitted]
      rfl
  | succ left ih =>
      have hlt : i < j := by omega
      have hlength : i < chain.length :=
        Nat.lt_trans hlt (List.getElem?_eq_some_iff.mp h.found).1
      have hentry : chain[i]? = some chain[i] := List.getElem?_eq_getElem hlength
      have hskip := h.first i (Nat.le_refl i) hlt _ hentry
      exact proceedFrom_skip hentry hskip (ih (h.succ hlt) (by omega))

/-- Proceeding reaches the target where no entry is left that admits the call. -/
theorem proceedFrom_takesNone {chain : Chain κ} {jp : JoinPoint κ} {i : Nat}
    (h : jp.TakesNone chain i) :
    (proceedFrom host below (chain.drop i) i).run jp =
      (reject i (chain.length - i) >>= fun _ => reachTarget host below).run jp := by
  induction hleft : chain.length - i generalizing i with
  | zero =>
      rw [List.drop_eq_nil_of_le (Nat.le_of_sub_eq_zero hleft), proceedFrom]
      rfl
  | succ left ih =>
      have hlt : i < chain.length := by omega
      have hentry : chain[i]? = some chain[i] := List.getElem?_eq_getElem hlt
      have hskip := h i (Nat.le_refl i) _ hentry
      exact proceedFrom_skip hentry hskip (ih h.succ (by omega))

/-- Skipping entries does nothing but log. -/
theorem reject_run (i count : Nat) (jp : JoinPoint κ) :
    ∃ lines, (reject i count : AtCall κ σ ν Unit).run jp =
      (Run.logAll lines >>= fun _ => pure ((), jp)) := by
  induction count generalizing i with
  | zero => exact ⟨[], rfl⟩
  | succ count ih =>
      obtain ⟨lines, hlines⟩ := ih (i + 1)
      refine ⟨⟨.trace, "Dynamic matcher rejected " ++ jp.method.text ++ " at chain position "
        ++ toString i ++ ", skipping", []⟩ :: lines, ?_⟩
      rw [reject, get_bind_run, log_bind_run, hlines, Run.logAll, bind_assoc]

/-- Reaching the target records that and calls it once with the arguments as they are. -/
theorem reachTarget_run {jp : JoinPoint κ} {target : TargetId} (h : jp.target = some target) :
    (reachTarget host below).run jp =
      (Run.record (.act (.reached jp.call target jp.arguments (some .targetInvoked))) >>= fun _ =>
        Run.callTarget host below target jp.method jp.arguments >>= fun result =>
          pure (result, { jp with phase := .ofResult result })) := by
  cases jp
  cases h
  simp [reachTarget, reach, act, settle, enterPhase]

theorem reachTarget_run_none {jp : JoinPoint κ} (h : jp.target = none) :
    (reachTarget host below).run jp =
      pure (.error (.noTarget jp.method.text), { jp with phase := .failed }) := by
  cases jp
  cases h
  rfl

/-- A level ends with its result translated, which is recorded. -/
theorem translated_run {i : Nat} {rest : AtCall κ σ ν Result} {jp : JoinPoint κ} :
    (translated i rest).run jp = (rest.run jp >>= fun p =>
      Run.record (.act (.returned p.2.call i (translateUndeclared jp.method p.1).isOk p.2.phase)) >>=
        fun _ => pure (translateUndeclared jp.method p.1, p.2)) := by
  rw [translated, get_bind_run, StateT.run_bind]
  simp [act]

/-- From a position on a call enters no entry before it, and it stays the call it is. -/
theorem proceedAt_sound (hbelow : below.Sound host) (chain : Chain κ) (i call : Nat) :
    Sound host (fun a => ∀ k phase, a = .entered call k phase → i ≤ k) call
      (proceedAt host below chain i) := by
  have hpermits : Permits (fun a => ∀ k phase, a = .entered call k phase → i ≤ k) call i := by
    constructor
    · intro a ha k phase hentered
      rw [hentered] at ha
      exact absurd ha (Nat.not_succ_le_self call)
    · intro k phase hk k' phase' hentered
      cases hentered
      exact hk
    · intro _ _ _ _ _ hentered
      cases hentered
    · intro _ _ _ _ _ _ hentered
      cases hentered
  exact translated_sound hpermits (proceedFrom_sound hbelow _ i hpermits)

theorem reachTarget_course (hbelow : below.Sound host) {jp jp' : JoinPoint κ} {result : Result}
    {w w' : World κ σ ν} (hcall : jp.call < w.calls)
    (h : ((reachTarget host below).run jp).run w = some ((result, jp'), w')) :
    w'.courseOf jp.call = w.courseOf jp.call ++ jp.reaching ∧ jp'.call = jp.call ∧
      (jp.target = none → result = .error (.noTarget jp.method.text)) := by
  cases htarget : jp.target with
  | none =>
      rw [reachTarget_run_none htarget] at h
      cases h
      simp [JoinPoint.reaching, htarget]
  | some target =>
      rw [reachTarget_run htarget] at h
      obtain ⟨_, v, hv, hcalled⟩ := Run.run_bind_eq_some.mp h
      cases hv
      obtain ⟨r, v', hv', hend⟩ := Run.run_bind_eq_some.mp hcalled
      cases hend
      have hsound : Run.Sound host (jp.call < ·.call) (jp.call + 1)
          (Run.callTarget host below target jp.method jp.arguments) :=
        Run.callTarget_sound hbelow (fun _ ha => ha) target jp.method jp.arguments
      have hsame := hsound.course_eq hv' hcall fun a ha => Nat.ne_of_gt ha
      refine ⟨?_, rfl, fun hnone => nomatch hnone⟩
      rw [hsame]
      simp only [JoinPoint.reaching, htarget]
      exact World.courseOf_record_act w rfl

/-- Where no entry is left that admits the call, its own acts are those of reaching the target. -/
theorem proceedAt_course (hbelow : below.Sound host) {chain : Chain κ} {i : Nat}
    {jp jp' : JoinPoint κ} {result : Result} {w w' : World κ σ ν} (hcall : jp.call < w.calls)
    (hnone : jp.TakesNone chain i)
    (h : ((proceedAt host below chain i).run jp).run w = some ((result, jp'), w')) :
    w'.courseOf jp.call = w.courseOf jp.call ++
        (jp.reaching ++ [.returned jp.call i result.isOk jp'.phase]) ∧
      (jp.target = none → result = .error (.noTarget jp.method.text)) := by
  rw [proceedAt, translated_run] at h
  obtain ⟨⟨r, jp₁⟩, v, hv, hend⟩ := Run.run_bind_eq_some.mp h
  obtain ⟨lines, hlines⟩ := reject_run (σ := σ) (ν := ν) i (chain.length - i) jp
  rw [proceedFrom_takesNone hnone, StateT.run_bind, hlines, bind_assoc] at hv
  obtain ⟨_, v₀, hv₀, hreach⟩ := Run.run_bind_eq_some.mp hv
  have hlogged : Run.Sound host (fun _ => False) w.calls (Run.logAll lines) := .logAll lines
  have hsame : v₀.courseOf jp.call = w.courseOf jp.call :=
    hlogged.course_eq hv₀ (Nat.le_refl _) fun a ha => ha.elim
  have hcalls := ((hlogged w (Nat.le_refl _)).leads hv₀).later.calls
  obtain ⟨hreached, hjp₁, hnoTarget⟩ :=
    reachTarget_course hbelow (Nat.lt_of_lt_of_le hcall hcalls) hreach
  obtain ⟨_, v', hv', hlast⟩ := Run.run_bind_eq_some.mp hend
  cases hv'
  cases hlast
  refine ⟨?_, fun htarget => ?_⟩
  · rw [← List.append_assoc, ← hsame, ← hreached, ← hjp₁]
    exact World.courseOf_record_act v rfl
  · rw [hnoTarget htarget]
    rfl

/-- How a call goes on from a position of a chain: with the first entry from there on that admits it,
which is handed the rest of the same chain to proceed with, or else with the target. -/
inductive GoesOn (host : Host κ σ ν) (below : Handler κ σ ν) (chain : Chain κ) (i : Nat)
    (jp : JoinPoint κ) : Prop where
  | enters {j : Nat} {entry : ChainEntry κ} (takes : jp.Takes chain i j entry)
      (going : (proceedAt host below chain i).run jp =
        (translated i (reject i (j - i) >>= fun _ =>
          enter host below entry j (proceedAt host below chain (j + 1)))).run jp)
  | reaches (none : jp.TakesNone chain i)
      (going : (proceedAt host below chain i).run jp =
        (translated i (reject i (chain.length - i) >>= fun _ =>
          reachTarget host below)).run jp)

/-- At every position the call goes on in one of these ways. -/
theorem goesOn (host : Host κ σ ν) (below : Handler κ σ ν) (chain : Chain κ) (i : Nat)
    (jp : JoinPoint κ) : GoesOn host below chain i jp := by
  rcases jp.takes_or_takesNone chain i with ⟨j, entry, htakes⟩ | hnone
  · refine .enters htakes ?_
    rw [proceedAt, translated_run, translated_run, proceedFrom_takes htakes]
  · refine .reaches hnone ?_
    rw [proceedAt, translated_run, translated_run, proceedFrom_takesNone hnone]

/-- Proceeding from a position is the simple recursion: the first entry from there on that admits
the call is run with the cursor after it, or else the target is reached, and the result is
translated.  Through the cursor no entry before it is ever entered, whatever the user's code does,
and where no entry admits the call the target is reached once with the arguments as they are. -/
theorem proceedAt_refines_recursion (host : Host κ σ ν) (depth : Nat) (chain : Chain κ) (i : Nat)
    (jp : JoinPoint κ) :
    (invoke host (Run.answer host depth)).run jp =
        (proceedAt host (Run.answer host depth) jp.chain 0).run jp ∧
      ((∃ j entry, jp.Takes chain i j entry ∧
          (proceedAt host (Run.answer host depth) chain i).run jp =
            (translated i (reject i (j - i) >>= fun _ =>
              enter host (Run.answer host depth) entry j
                (proceedAt host (Run.answer host depth) chain (j + 1)))).run jp) ∨
        (jp.TakesNone chain i ∧
          (proceedAt host (Run.answer host depth) chain i).run jp =
            (translated i (reject i (chain.length - i) >>= fun _ =>
              reachTarget host (Run.answer host depth))).run jp)) ∧
      ∀ (w w' : World κ σ ν) (result : Result) (jp' : JoinPoint κ), jp.call < w.calls →
        ((proceedAt host (Run.answer host depth) chain i).run jp).run w =
          some ((result, jp'), w') →
        jp.Continues jp' ∧
          ∃ more, w'.courseOf jp.call = w.courseOf jp.call ++ more ∧
            (∀ k phase, .entered jp.call k phase ∈ more → i ≤ k) ∧
            (jp.TakesNone chain i →
              more = jp.reaching ++ [.returned jp.call i result.isOk jp'.phase] ∧
                (jp.target = none → result = .error (.noTarget jp.method.text))) := by
  have hbelow := Run.answer_sound host depth
  refine ⟨?_, ?_, fun w w' result jp' hcall h => ?_⟩
  · rw [invoke, get_bind_run, proceedAt, List.drop_zero]
  · cases goesOn host (Run.answer host depth) chain i jp with
    | enters takes going => exact .inl ⟨_, _, takes, going⟩
    | reaches none going => exact .inr ⟨none, going⟩
  · obtain ⟨hsound, hcontinues⟩ := proceedAt_sound hbelow chain i jp.call jp rfl
    obtain ⟨more, hmore, hall⟩ := ((hsound w hcall).leads h).course jp.call
    refine ⟨hcontinues result jp' ⟨w, w', h⟩, more, hmore, ?_, fun hnone => ?_⟩
    · exact fun k phase hentered => (hall _ hentered).2.1 k phase rfl
    · obtain ⟨hcourse, hnoTarget⟩ := proceedAt_course hbelow hcall hnone h
      exact ⟨List.append_cancel_left (hmore.symm.trans hcourse), hnoTarget⟩

section Twice

/-- Around advice that proceeds twice. -/
def twiceHost : Host Unit Unit Unit :=
  { Host.idle with around := fun _ => .ask .proceed fun _ => .request AroundRequest.proceed }

/-- A chain in the middle of which an entry admits no call. -/
def twiceChain : Chain Unit :=
  [.settled ⟨none, .scripted ()⟩,
    .dynamic ⟨none, .scripted ()⟩ (.ofCallTest fun _ _ => false),
    .settled ⟨none, .scripted ()⟩]

def twiceCall : JoinPoint Unit := .opened .finalizer [] (some 0) none twiceChain none

def twiceWorld : World Unit Unit Unit :=
  { World.initial () with calls := 1, targets := #[⟨.root, ()⟩] }

/-- From the second position on, the first entry of the chain is never entered. -/
theorem proceedAt_refines_recursion_twice :
    ∃ result jp' w',
      ((proceedAt twiceHost (Run.answer twiceHost 1) twiceChain 1).run twiceCall).run twiceWorld =
        some ((result, jp'), w') ∧
      twiceCall.Continues jp' ∧
        ∃ more, w'.courseOf 0 = twiceWorld.courseOf 0 ++ more ∧
          ∀ k phase, .entered 0 k phase ∈ more → 1 ≤ k := by
  have hsome : (((proceedAt twiceHost (Run.answer twiceHost 1) twiceChain 1).run twiceCall).run
      twiceWorld).isSome = true := rfl
  obtain ⟨⟨⟨result, jp'⟩, w'⟩, hrun⟩ := Option.isSome_iff_exists.mp hsome
  obtain ⟨_, _, hends⟩ := proceedAt_refines_recursion twiceHost 1 twiceChain 1 twiceCall
  obtain ⟨hcontinues, more, hmore, hentered, _⟩ :=
    hends twiceWorld w' result jp' Nat.zero_lt_one hrun
  exact ⟨result, jp', w', hrun, hcontinues, more, hmore, hentered⟩

end Twice

end AtCall

end Weaving
