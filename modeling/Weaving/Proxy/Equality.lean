import Weaving.World

/-
Equality and hash of proxies.  Two proxies are equal when they expose the same contracts in the same
order, their advisors agree one by one in type and name of advice, and their targets come from the
same source.  The hash of a proxy depends on its source alone.
-/
namespace Weaving

/-- Whether two advisors agree in type and name of advice. -/
def Advisor.agrees {κ : Type} (a b : Advisor κ) : Bool :=
  a.advice.type = b.advice.type && a.advice.name = b.advice.name

/-- Whether two lists have equally many elements and agree one by one. -/
def agreeOneByOne {α : Type} (agree : α → α → Bool) : List α → List α → Bool
  | [], [] => true
  | a :: as, b :: bs => agree a b && agreeOneByOne agree as bs
  | _, _ => false

namespace World

variable {κ σ ν : Type}

/-- Whether the configurations of two proxies make them equal. -/
def configurationsAgree (w : World κ σ ν) (a b : Configuration κ) : Bool :=
  agreeOneByOne (· == ·) a.interfaces b.interfaces && agreeOneByOne Advisor.agrees a.advisors b.advisors
    && w.identity? a.source = w.identity? b.source

/-- Whether two configurations are one, or make their proxies equal. -/
def configurationsEqual (w : World κ σ ν) (a b : ConfigurationId) : Bool :=
  a = b ||
    match w.configurations[a]?, w.configurations[b]? with
    | some left, some right => w.configurationsAgree left right
    | _, _ => false

/-- Whether two proxies are equal. -/
def proxiesEqual (w : World κ σ ν) (p q : ProxyId) : Bool :=
  p = q ||
    match w.proxies[p]?, w.proxies[q]? with
    | some left, some right => w.configurationsEqual left.configuration right.configuration
    | _, _ => false

/-- Whether a proxy equals an object. -/
def proxyEquals (w : World κ σ ν) (p : ProxyId) : Option Value → Bool
  | some (.proxy q) => w.proxiesEqual p q
  | _ => false

/-- The seed of the hashes of proxies. -/
def hashSeed : UInt64 := 0x41505258

/-- The hash of a proxy whose source has an identity. -/
def hashOf (identity : Identity) : UInt64 := hashSeed * 13 + identity.word

/-- The hash of a proxy. -/
def proxyHash (w : World κ σ ν) (p : ProxyId) : UInt64 :=
  match (w.configurationOf? p).bind fun c => w.identity? c.source with
  | some identity => hashOf identity
  | none => hashSeed * 13

end World

end Weaving
