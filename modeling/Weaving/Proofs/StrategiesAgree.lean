import Weaving.Proofs.TwinsMade

/-
The two strategies agree.  A factory and the one that differs from it in one flag make twins; from
then on all code that does not look at the twins goes on side by side in their worlds.  Calls on the
proxy, one after another, are such code.
-/
namespace Weaving

variable {κ σ ν α : Type}

/-- Calls on a proxy one after another, and what they come to. -/
def callsOn (p : ProxyId) : List (MethodSignature × List Value) → Code κ σ ν (List Result)
  | [] => return []
  | (m, arguments) :: rest => do
    let result ← Code.ask (.invoke p m arguments)
    return result :: (← callsOn p rest)

theorem Program.Asks.bind {Req : Type} {Ans : Req → Type} {may : Req → Prop} {β : Type}
    {program : Program Req Ans α} {next : α → Program Req Ans β} (h : program.Asks may)
    (hnext : ∀ a, (next a).Asks may) : (program.bind next).Asks may := by
  induction program with
  | done a => exact hnext a
  | ask request resume ih => exact ⟨h.1, fun answer => ih answer (h.2 answer)⟩

/-- Calls of methods that both twins take on do not look at the twins. -/
theorem callsOn_discreet {t : Twins κ} {calls : List (MethodSignature × List Value)}
    (h : ∀ call ∈ calls, t.Suits call.1) :
    (callsOn t.proxy calls : Code κ σ ν (List Result)).Asks (·.Discreet t) := by
  induction calls with
  | nil => trivial
  | cons call rest ih =>
      have hrest := ih fun other hother => h other (List.mem_cons_of_mem call hother)
      refine ⟨fun _ => h call List.mem_cons_self, fun result => ?_⟩
      exact hrest.bind fun _ => trivial

namespace Run

/-- The two strategies agree.  A factory makes a contract proxy in a world, and the factory that
differs in one flag makes a subclass proxy in a copy of it.  The two answer alike to all code that does
not look at which of them is there: calls of ordinary methods that both take on, one after another or
from within each other, with whatever is done between them.  They come to the same results, the proxy
being one and the same on either side, and do the same on the way: interceptors are entered, targets
taken, reached and given back, and what user code does at all this is noted, in the same order.  Such
code may ask for the chains of the proxy at any time, so these consist of the same interceptors.  The
advisors are to take methods with the same key for the same method, and neither they nor the targets
may look at which proxy they run under. -/
theorem proxy_strategies_agree (host : Host κ σ ν) (made : Nat) (f : ProxyFactory κ)
    (id : SourceId) (source : Source κ) (type : TypeInfo) (advice : Advisor κ → Prop)
    (w u v : World κ σ ν) (p q : ProxyId)
    (hw : World.Reachable host w) (hf : f.source = some id)
    (hsource : w.sources[id]? = some source) (htype : source.type = some type)
    (hclass : type.contract = false) (hexposes : (f.configured id type).interfaces ≠ [])
    (hfactory : f.chainFactory = none)
    (hflags : f.flags.proxyTargetClass = false ∧ f.flags.optimize = false)
    (hadvice : ∀ a ∈ f.advisors, advice a)
    (hhost : host.Asks (·.Discreet (f.twins w id type advice)))
    (hu : (answer host made (.makeProxy f)).run w = some (.ok p, u))
    (hv : (answer host made (.makeProxy f.forTargetClass)).run w = some (.ok q, v)) :
    q = p ∧ (u.proxies[p]?).map (·.strategy) = some .contracts ∧
      (v.proxies[p]?).map (·.strategy) = some .subclass ∧
      ∀ (depth : Nat) {α : Type} (program : Code κ σ ν α),
        program.Asks (·.Discreet (f.twins w id type advice)) →
        Option.Rel (fun x y => x.1 = y.1 ∧ x.2.Agrees y.2)
          (code host depth program u) (code host depth program v) := by
  cases made with
  | zero => cases hu
  | succ made =>
      obtain ⟨hp, hq, hbeside⟩ := makeProxy_twins (answer_sound host made) hw.wellFormed hf hsource
        htype hclass hexposes hfactory hflags.1 hflags.2 hadvice hu hv
      obtain ⟨d, hfirst⟩ := hbeside.proxied.first
      have hsecond := hbeside.proxied.second
      subst hp
      subst hq
      refine ⟨rfl, ?_, ?_, fun depth _ program hprogram => ?_⟩
      · rw [show u.proxies[w.proxies.size]? = _ from hfirst]
        rfl
      · rw [show v.proxies[w.proxies.size]? = _ from hsecond]
        rfl
      · have hends : (f.twins w id type advice).Meet Eq (code host depth program u)
            (code host depth program v) :=
          code_parallel (answer_unaware hhost depth) hprogram u v hbeside
        generalize code host depth program u = x at hends ⊢
        generalize code host depth program v = y at hends ⊢
        cases hends with
        | none => exact .none
        | some h => exact .some ⟨h.1, h.2.agrees⟩

section Texts

/-- Advice that notes that it was entered, and targets that note that they were called and return
themselves. -/
def textHost : Host Unit Unit String :=
  { Host.idle with
    around := fun _ => .ask (.inner (.outer (.note "advised"))) fun _ => .request AroundRequest.proceed
    target := fun _ t _ _ => do
      Code.ask (.note "called")
      return .ok (some (.target t)) }

def textContract : TypeInfo := ⟨2, "Appendable", [], true, false, false⟩

def textType : TypeInfo := ⟨3, "Text", [textContract], false, false, false⟩

def textMethod : MethodSignature :=
  { declaringType := textContract, name := "append", returnType := .reference textContract }

/-- A factory of frozen, exposed proxies of one text, whose calls are advised. -/
def textFactory : ProxyFactory Unit :=
  { flags := { exposeProxy := true, frozen := true }
    source := some 0
    interfaces := [textContract]
    advisors := [.unconditional ⟨"note", .around ⟨none, .scripted ()⟩⟩]
    methods := [textMethod] }

def textSetup : Code Unit Unit String SourceId := do
  let target ← Code.ask (.newTarget textType ())
  Code.ask (.newSource (.singleton target textType))

def textWorld : World Unit Unit String := worldAfter textHost 1 textSetup (.initial ())

/-- The twins that the factory of texts makes. -/
def textTwins : Twins Unit := textFactory.twins textWorld 0 textType fun _ => True

theorem textHost_discreet : textHost.Asks (·.Discreet textTwins) :=
  { around := fun _ => ⟨trivial, fun _ => ⟨trivial, fun _ => trivial⟩⟩
    before := fun _ => trivial, afterReturning := fun _ _ => trivial
    afterThrowing := fun _ _ => trivial, after := fun _ => trivial
    target := fun _ _ _ _ => ⟨trivial, fun _ => trivial⟩, make := fun _ => trivial
    acquire := fun _ => trivial, release := fun _ _ => trivial
    chain := fun _ _ _ _ _ => trivial, builder := fun _ => trivial }

theorem textMethod_suits : textTwins.Suits textMethod where
  regular := rfl
  declared := .inr ⟨textContract, List.mem_cons_self, by decide⟩
  returned := by
    intro type htype _
    cases htype
    exact ⟨textContract, List.mem_cons_self, by decide⟩
  recognised := by
    intro other hother _ a _ _ _
    rw [List.mem_singleton.mp hother]

/-- The world in which the factory of texts has made a contract proxy. -/
def textProxied : World Unit Unit String :=
  worldAfter textHost 1 (Code.ask (.makeProxy textFactory)) textWorld

/-- The text is appended to twice. -/
def textCalls : Code Unit Unit String (List Result) :=
  callsOn textTwins.proxy [(textMethod, []), (textMethod, [])]

/-- A method that returns the target is called twice: with either proxy the client gets the proxy. -/
theorem proxy_strategies_agree_texts :
    ∃ v x y, (answer textHost 1 (.makeProxy textFactory)).run textWorld =
        some (.ok 0, textProxied) ∧
      (answer textHost 1 (.makeProxy textFactory.forTargetClass)).run textWorld =
        some (.ok 0, v) ∧
      code textHost 2 textCalls textProxied = some x ∧ code textHost 2 textCalls v = some y ∧
      x.1.map Except.toOption = [some (some (.proxy 0)), some (some (.proxy 0))] ∧
      x.1 = y.1 ∧ x.2.Agrees y.2 := by
  obtain ⟨v, hu, hv⟩ : ∃ v,
      (answer textHost 1 (.makeProxy textFactory)).run textWorld = some (.ok 0, textProxied) ∧
        (answer textHost 1 (.makeProxy textFactory.forTargetClass)).run textWorld =
          some (.ok 0, v) := ⟨_, rfl, rfl⟩
  have hreachable : World.Reachable textHost textWorld :=
    worldAfter_reachable (.initial ()) 1 textSetup
  have hdiscreet : textCalls.Asks (·.Discreet textTwins) := by
    refine callsOn_discreet fun call hcall => ?_
    simp only [List.mem_cons, List.not_mem_nil, or_false, or_self] at hcall
    rw [hcall]
    exact textMethod_suits
  obtain ⟨_, _, _, hagree⟩ := proxy_strategies_agree textHost 1 textFactory 0
    (.singleton 0 textType) textType (fun _ => True) textWorld textProxied v 0 0 hreachable rfl rfl
    rfl rfl (ProxyFactory.interfaces_configured (by decide) 0 textType) rfl ⟨rfl, rfl⟩
    (fun _ _ => trivial) textHost_discreet hu hv
  have hsame := hagree 2 textCalls hdiscreet
  have hvalue : (code textHost 2 textCalls textProxied).map (·.1.map Except.toOption) =
      some [some (some (.proxy 0)), some (some (.proxy 0))] := by decide +kernel
  obtain ⟨x, hx, hvalue⟩ := Option.map_eq_some_iff.mp hvalue
  rw [hx] at hsame
  generalize hy : code textHost 2 textCalls v = ended at hsame
  cases hsame with
  | @some _ y hends => exact ⟨v, x, y, hu, hv, hx, hy, hvalue, hends.1, hends.2⟩

end Texts

end Run

end Weaving
