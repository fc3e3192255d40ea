import Weaving.Run.Proxies
import Weaving.Proofs.ConfigurationSteps
import Mathlib.Logic.Relation

/-
What can become of a world.  `World.Step` lists the changes that a run can make to a world, one at a
time, with what is known when each is made; the acts recorded on the way can be limited to some.
Whatever steps lead to is a later world: identities keep what they stand for, sources change nothing
but their pools, and dispatchers keep the callbacks they chose.
-/
namespace Weaving

variable {κ σ ν : Type}

/-- The number of the call that an act belongs to. -/
def Act.call : Act → Nat
  | .acquired call _ _ => call
  | .refused call _ => call
  | .entered call _ _ => call
  | .reached call _ _ _ => call
  | .returned call _ _ _ => call
  | .released call _ _ _ => call

namespace Source

@[simp] theorem type_mapPool (s : Source κ) (change : Pool → Pool) :
    (s.mapPool change).type = s.type := by
  cases s <;> rfl

@[simp] theorem isStatic_mapPool (s : Source κ) (change : Pool → Pool) :
    (s.mapPool change).isStatic = s.isStatic := by
  cases s <;> rfl

@[simp] theorem mapPool_self (s : Source κ) : (s.mapPool fun pool => pool) = s := by
  cases s <;> rfl

theorem mapPool_mapPool (s : Source κ) (f g : Pool → Pool) :
    (s.mapPool f).mapPool g = s.mapPool (g ∘ f) := by
  cases s <;> rfl

end Source

/-- Whether a method is an identity method that a type with these marks leaves to its proxy. -/
def MethodSignature.isOwn (m : MethodSignature) (definesEquals definesHash : Bool) : Bool :=
  match m.kind with
  | .equals => !definesEquals
  | .hashCode => !definesHash
  | .finalize => true
  | .regular => false

/-- A frozen configuration remembers a chain for a method on a target type. -/
def Configuration.Remembers (c : Configuration κ) (type : TypeInfo) (key : MethodKey)
    (chain : Chain κ) : Prop :=
  c.frozen = true ∧ c.cache.find? ⟨key, some type.id⟩ = some chain

theorem Configuration.Later.remembers {c c' : Configuration κ} (h : c.Later c') {type : TypeInfo}
    {key : MethodKey} {chain : Chain κ} (hc : c.Remembers type key chain) :
    c'.Remembers type key chain :=
  ⟨h.frozen hc.1, h.cache hc.1 _ _ hc.2⟩

namespace Callback

/-- Whether a callback answers for the proxy itself and leaves the target alone. -/
def isOwn : Callback κ → Bool
  | .noOverride => true
  | .proxyEquals => true
  | .proxyHash => true
  | _ => false

/-- What a callback takes for granted of the configuration and the source it was chosen for. -/
def Backed (c : Configuration κ) (source : Source κ) (type : TypeInfo) (key : MethodKey) :
    Callback κ → Prop
  | .fixedChain chain => c.Remembers type key chain
  | .invokeTarget => c.Remembers type key []
  | .dispatchTarget =>
    c.Remembers type key [] ∧ c.flags.exposeProxy = false ∧ source.isStatic = true
  | _ => True

theorem Backed.later {c c' : Configuration κ} {source : Source κ} {type : TypeInfo}
    {key : MethodKey} {callback : Callback κ} (h : callback.Backed c source type key)
    (hc : c.Later c') (change : Pool → Pool) :
    callback.Backed c' (source.mapPool change) type key := by
  cases callback with
  | fixedChain chain => exact hc.remembers h
  | invokeTarget => exact hc.remembers h
  | dispatchTarget =>
      obtain ⟨hremembers, hexposed, hstatic⟩ := h
      refine ⟨hc.remembers hremembers, ?_, ?_⟩
      · rw [hc.flags]
        exact hexposed
      · rw [Source.isStatic_mapPool]
        exact hstatic
  | _ => trivial

end Callback

namespace SubclassDispatcher

/-- Whether a dispatcher leaves a method to the proxy itself. -/
def keeps (d : SubclassDispatcher κ) (m : MethodSignature) : Bool :=
  m.isOwn d.targetType.definesEquals d.targetType.definesHash

/-- A dispatcher that was made for a configuration and its source. -/
def MadeFor (d : SubclassDispatcher κ) (c : Configuration κ) (source : Source κ) : Prop :=
  source.type = some d.targetType ∧
    ∀ key chain, Assoc.get? key d.fixedChains = some chain → c.Remembers d.targetType key chain

/-- A dispatcher as it may be at a later time. -/
structure Later (d d' : SubclassDispatcher κ) : Prop where
  targetType : d'.targetType = d.targetType
  fixedChains : d'.fixedChains = d.fixedChains
  callbacks : ∀ m callback, d.callback? m = some callback → d'.callback? m = some callback

theorem Later.refl (d : SubclassDispatcher κ) : d.Later d := ⟨rfl, rfl, fun _ _ => id⟩

theorem Later.trans {a b c : SubclassDispatcher κ} (hab : a.Later b) (hbc : b.Later c) :
    a.Later c where
  targetType := hbc.targetType.trans hab.targetType
  fixedChains := hbc.fixedChains.trans hab.fixedChains
  callbacks m callback h := hbc.callbacks m callback (hab.callbacks m callback h)

theorem callback?_remember_self (d : SubclassDispatcher κ) (m : MethodSignature)
    (callback : Callback κ) :
    (d.remember m callback).callback? m = some ((d.callback? m).getD callback) :=
  Assoc.get?_putNew_self m.key callback d.callbacks

theorem callback?_remember_of_ne (d : SubclassDispatcher κ) {m other : MethodSignature}
    (callback : Callback κ) (h : other.key ≠ m.key) :
    (d.remember m callback).callback? other = d.callback? other :=
  Assoc.get?_putNew_of_ne callback d.callbacks h

/-- A dispatcher that is to remember a callback remembers it only where it had none. -/
theorem callback?_remember_eq_some {d : SubclassDispatcher κ} {m other : MethodSignature}
    {callback found : Callback κ} (h : (d.remember m callback).callback? other = some found) :
    d.callback? other = some found ∨
      other.key = m.key ∧ d.callback? m = none ∧ found = callback := by
  by_cases hkey : other.key = m.key
  · rw [callback?, hkey] at h
    have hself := (callback?_remember_self d m callback).symm.trans h
    cases hold : d.callback? m with
    | none =>
        rw [hold] at hself
        cases hself
        exact .inr ⟨hkey, rfl, rfl⟩
    | some old =>
        rw [hold] at hself
        cases hself
        refine .inl ?_
        rw [callback?, hkey]
        exact hold
  · rw [callback?_remember_of_ne d callback hkey] at h
    exact .inl h

theorem later_remember (d : SubclassDispatcher κ) (m : MethodSignature) (callback : Callback κ) :
    d.Later (d.remember m callback) := by
  refine ⟨rfl, rfl, fun other found hfound => ?_⟩
  by_cases hkey : other.key = m.key
  · have hm : d.callback? m = some found := by
      rw [← hfound, callback?, callback?, hkey]
    have hself := callback?_remember_self d m callback
    rw [hm] at hself
    rw [callback?, hkey]
    exact hself
  · rw [callback?_remember_of_ne d callback hkey]
    exact hfound

theorem MadeFor.later {d d' : SubclassDispatcher κ} {c c' : Configuration κ} {source : Source κ}
    (h : d.MadeFor c source) (hd : d.Later d') (hc : c.Later c') (change : Pool → Pool) :
    d'.MadeFor c' (source.mapPool change) := by
  obtain ⟨htype, hfixed⟩ := h
  refine ⟨?_, fun key chain hchain => ?_⟩
  · rw [Source.type_mapPool, hd.targetType]
    exact htype
  · rw [hd.fixedChains] at hchain
    rw [hd.targetType]
    exact hc.remembers (hfixed key chain hchain)

end SubclassDispatcher

namespace World

/-- The parts of a proxy are there and belong together. -/
def Fits (w : World κ σ ν) (proxy : Proxy) : Prop :=
  ∃ c source, w.configurations[proxy.configuration]? = some c ∧
    w.sources[c.source]? = some source ∧
    match proxy.dispatch with
    | .contracts d => d = .of proxy.proxiedTypes
    | .subclass dispatcher =>
      ∃ d, w.dispatchers[dispatcher]? = some d ∧ d.MadeFor c source ∧
        d.targetType ∈ proxy.proxiedTypes

/-- The changes that a run can make to a world, all acts recorded being of the kind allowed. -/
inductive Step (host : Host κ σ ν) (allowed : Act → Prop) (w : World κ σ ν) :
    World κ σ ν → Prop where
  | recorded {e : Event ν} (h : ∀ a, e = .act a → allowed a ∧ a.call < w.calls) :
      Step host allowed w (w.record e)
  | recalled {memory : σ} : Step host allowed w { w with memory := memory }
  | exposed {value : Option Value} : Step host allowed w { w with current := value }
  | begun : Step host allowed w { w with calls := w.calls + 1 }
  | madeTarget {t : Target κ} : Step host allowed w { w with targets := w.targets.push t }
  | madeSource {s : Source κ} : Step host allowed w { w with sources := w.sources.push s }
  | madeCache : Step host allowed w { w with caches := w.caches.push .empty }
  | madeConfiguration {f : ProxyFactory κ} {flags : Flags} {id : SourceId} {source : Source κ}
      {advisors : List (Advisor κ)} {chainFactory : ChainFactory κ}
      (sourced : w.sources[id]? = some source) :
      Step host allowed w
        { w with configurations :=
            w.configurations.push (f.configure flags id source.type advisors chainFactory) }
  | madeDispatcher {d : SubclassDispatcher κ} (fresh : d.callbacks = []) :
      Step host allowed w { w with dispatchers := w.dispatchers.push d }
  | madeProxy {proxy : Proxy} (fits : w.Fits proxy) :
      Step host allowed w { w with proxies := w.proxies.push proxy }
  | pooled {id : SourceId} {change : Pool → Pool} :
      Step host allowed w (w.mapSource id (Source.mapPool change))
  | configured {id : ConfigurationId} {c : Configuration κ}
      {change : Configuration κ → Configuration κ} (found : w.configurations[id]? = some c)
      (step : c.Step host (change c)) : Step host allowed w (w.mapConfiguration id change)
  | stored {id : CacheId} {change : ChainCache κ → ChainCache κ} :
      Step host allowed w (w.mapCache (.standalone id) change)
  | chose {dispatcher : DispatcherId} {d : SubclassDispatcher κ} {id : ConfigurationId}
      {source : Source κ} {m : MethodSignature} {callback : Callback κ}
      (found : w.dispatchers[dispatcher]? = some d) (own : callback.isOwn = d.keeps m)
      (backed : ∀ c, w.configurations[id]? = some c → d.MadeFor c source →
        callback.Backed c source d.targetType m.key) :
      Step host allowed w (w.mapDispatcher dispatcher (·.remember m callback))

/-- Several changes in a row. -/
def Leads (host : Host κ σ ν) (allowed : Act → Prop) (w w' : World κ σ ν) : Prop :=
  Relation.ReflTransGen (Step host allowed) w w'

theorem Leads.refl {host : Host κ σ ν} {allowed : Act → Prop} (w : World κ σ ν) :
    w.Leads host allowed w := Relation.ReflTransGen.refl

theorem Leads.trans {host : Host κ σ ν} {allowed : Act → Prop} {u v w : World κ σ ν}
    (huv : u.Leads host allowed v) (hvw : v.Leads host allowed w) : u.Leads host allowed w :=
  Relation.ReflTransGen.trans huv hvw

theorem Step.leads {host : Host κ σ ν} {allowed : Act → Prop} {w w' : World κ σ ν}
    (h : w.Step host allowed w') : w.Leads host allowed w' := Relation.ReflTransGen.single h

/-- A world as it may be at a later time. -/
structure Later (w w' : World κ σ ν) : Prop where
  calls : w.calls ≤ w'.calls
  targets : ∀ (t : TargetId) (object : Target κ), w.targets[t]? = some object →
    w'.targets[t]? = some object
  sources : ∀ (id : SourceId) (source : Source κ), w.sources[id]? = some source →
    ∃ change, w'.sources[id]? = some (source.mapPool change)
  configurations : ∀ (id : ConfigurationId) (c : Configuration κ), w.configurations[id]? = some c →
    ∃ c', w'.configurations[id]? = some c' ∧ c.Later c'
  dispatchers : ∀ (dispatcher : DispatcherId) (d : SubclassDispatcher κ),
    w.dispatchers[dispatcher]? = some d →
    ∃ d', w'.dispatchers[dispatcher]? = some d' ∧ d.Later d'
  proxies : ∀ (p : ProxyId) (proxy : Proxy), w.proxies[p]? = some proxy →
    w'.proxies[p]? = some proxy

theorem Later.refl (w : World κ σ ν) : w.Later w where
  calls := Nat.le_refl _
  targets _ _ := id
  sources id source h := ⟨fun pool => pool, by simpa using h⟩
  configurations id c h := ⟨c, h, .refl c⟩
  dispatchers dispatcher d h := ⟨d, h, .refl d⟩
  proxies _ _ := id

theorem Later.trans {u v w : World κ σ ν} (huv : u.Later v) (hvw : v.Later w) : u.Later w where
  calls := Nat.le_trans huv.calls hvw.calls
  targets t object h := hvw.targets t object (huv.targets t object h)
  sources id source h := by
    obtain ⟨f, hf⟩ := huv.sources id source h
    obtain ⟨g, hg⟩ := hvw.sources id _ hf
    exact ⟨g ∘ f, by rw [hg, Source.mapPool_mapPool]⟩
  configurations id c h := by
    obtain ⟨c', hc', hlater⟩ := huv.configurations id c h
    obtain ⟨c'', hc'', hlater'⟩ := hvw.configurations id c' hc'
    exact ⟨c'', hc'', hlater.trans hlater'⟩
  dispatchers dispatcher d h := by
    obtain ⟨d', hd', hlater⟩ := huv.dispatchers dispatcher d h
    obtain ⟨d'', hd'', hlater'⟩ := hvw.dispatchers dispatcher d' hd'
    exact ⟨d'', hd'', hlater.trans hlater'⟩
  proxies p proxy h := hvw.proxies p proxy (huv.proxies p proxy h)

/-- What stands at a position of an array stays there when something is added at the end. -/
theorem getElem?_push_of_some {α : Type} {xs : Array α} {i : Nat} {x : α} (y : α)
    (h : xs[i]? = some x) : (xs.push y)[i]? = some x := by
  have hlt : i < xs.size := (Array.getElem?_eq_some_iff.mp h).1
  rw [Array.getElem?_push, if_neg (Nat.ne_of_lt hlt)]
  exact h

theorem Step.later {host : Host κ σ ν} {allowed : Act → Prop} {w w' : World κ σ ν}
    (h : w.Step host allowed w') : w.Later w' := by
  have hsame := Later.refl w
  cases h with
  | recorded _ => exact ⟨hsame.1, hsame.2, hsame.3, hsame.4, hsame.5, hsame.6⟩
  | recalled => exact ⟨hsame.1, hsame.2, hsame.3, hsame.4, hsame.5, hsame.6⟩
  | exposed => exact ⟨hsame.1, hsame.2, hsame.3, hsame.4, hsame.5, hsame.6⟩
  | begun => exact ⟨Nat.le_succ _, hsame.2, hsame.3, hsame.4, hsame.5, hsame.6⟩
  | madeTarget =>
      exact ⟨hsame.1, fun _ _ => getElem?_push_of_some _, hsame.3, hsame.4, hsame.5, hsame.6⟩
  | madeSource =>
      refine ⟨hsame.1, hsame.2, fun id source h => ?_, hsame.4, hsame.5, hsame.6⟩
      obtain ⟨change, hchange⟩ := hsame.3 id source h
      exact ⟨change, getElem?_push_of_some _ hchange⟩
  | madeCache => exact ⟨hsame.1, hsame.2, hsame.3, hsame.4, hsame.5, hsame.6⟩
  | madeConfiguration _ =>
      exact ⟨hsame.1, hsame.2, hsame.3, fun _ c h => ⟨c, getElem?_push_of_some _ h, .refl c⟩,
        hsame.5, hsame.6⟩
  | madeDispatcher _ =>
      exact ⟨hsame.1, hsame.2, hsame.3, hsame.4,
        fun _ d h => ⟨d, getElem?_push_of_some _ h, .refl d⟩, hsame.6⟩
  | madeProxy _ =>
      exact ⟨hsame.1, hsame.2, hsame.3, hsame.4, hsame.5, fun _ _ => getElem?_push_of_some _⟩
  | @pooled id change =>
      refine ⟨hsame.1, hsame.2, fun other source h => ?_, hsame.4, hsame.5, hsame.6⟩
      change ∃ f, (w.sources.modify id _)[other]? = some (source.mapPool f)
      rw [Array.getElem?_modify, h]
      split
      · exact ⟨change, rfl⟩
      · exact hsame.3 other source h |>.imp fun f hf => h ▸ hf
  | @configured id c change found step =>
      refine ⟨hsame.1, hsame.2, hsame.3, fun other c₀ h => ?_, hsame.5, hsame.6⟩
      change ∃ c', (w.configurations.modify id change)[other]? = some c' ∧ _
      rw [Array.getElem?_modify, h]
      split
      · rename_i hid
        subst hid
        obtain rfl : c = c₀ := Option.some.inj (found.symm.trans h)
        exact ⟨change c, rfl, step.later⟩
      · exact ⟨c₀, rfl, .refl c₀⟩
  | stored => exact ⟨hsame.1, hsame.2, hsame.3, hsame.4, hsame.5, hsame.6⟩
  | @chose dispatcher d id source m callback found own backed =>
      refine ⟨hsame.1, hsame.2, hsame.3, hsame.4, fun other d₀ h => ?_, hsame.6⟩
      change ∃ d', (w.dispatchers.modify dispatcher _)[other]? = some d' ∧ _
      rw [Array.getElem?_modify, h]
      split
      · exact ⟨d₀.remember m callback, rfl, SubclassDispatcher.later_remember d₀ m callback⟩
      · exact ⟨d₀, rfl, .refl d₀⟩

theorem Leads.later {host : Host κ σ ν} {allowed : Act → Prop} {w w' : World κ σ ν}
    (h : w.Leads host allowed w') : w.Later w' := by
  induction h with
  | refl => exact Later.refl w
  | tail _ step ih => exact ih.trans step.later

theorem Step.mono {host : Host κ σ ν} {few more : Act → Prop} (hmono : ∀ a, few a → more a)
    {w w' : World κ σ ν} (h : w.Step host few w') : w.Step host more w' := by
  cases h with
  | recorded h => exact .recorded fun a ha => ⟨hmono a (h a ha).1, (h a ha).2⟩
  | recalled => exact .recalled
  | exposed => exact .exposed
  | begun => exact .begun
  | madeTarget => exact .madeTarget
  | madeSource => exact .madeSource
  | madeCache => exact .madeCache
  | madeConfiguration sourced => exact .madeConfiguration sourced
  | madeDispatcher fresh => exact .madeDispatcher fresh
  | madeProxy fits => exact .madeProxy fits
  | pooled => exact .pooled
  | configured found step => exact .configured found step
  | stored => exact .stored
  | chose found own backed => exact .chose found own backed

theorem Leads.mono {host : Host κ σ ν} {few more : Act → Prop} (hmono : ∀ a, few a → more a)
    {w w' : World κ σ ν} (h : w.Leads host few w') : w.Leads host more w' :=
  Relation.ReflTransGen.mono (fun _ _ => Step.mono hmono) _ _ h

/-- The worlds that runs of user code lead to, those in the middle of calls included. -/
inductive Reachable (host : Host κ σ ν) : World κ σ ν → Prop where
  | initial (memory : σ) : Reachable host (World.initial memory)
  | step {w w' : World κ σ ν} (before : Reachable host w)
      (change : Step host (fun _ => True) w w') : Reachable host w'

end World

end Weaving
