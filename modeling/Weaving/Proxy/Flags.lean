import Weaving.Text.Inspect

/-
The flags of a proxy's configuration.
-/
namespace Weaving

/-- The flags of a proxy's configuration. -/
structure Flags where
  /-- The proxy stands for the target's own type. -/
  proxyTargetClass : Bool := false
  /-- The proxy may be optimised, which also makes it stand for the target's own type. -/
  optimize : Bool := false
  /-- The proxy hides its configuration. -/
  hidden : Bool := false
  /-- The proxy is exposed while it handles a call. -/
  exposeProxy : Bool := false
  /-- The configuration is frozen when the proxy is made. -/
  frozen : Bool := false
  /-- The advisors are known to apply to the target type. -/
  preFiltered : Bool := false
  deriving DecidableEq, Inhabited

namespace Flags

/-- The flags with the names under which they are written, in order. -/
def entries (f : Flags) : List (String × Bool) :=
  [("proxy_target_class", f.proxyTargetClass), ("optimize", f.optimize), ("opaque", f.hidden),
   ("expose_proxy", f.exposeProxy), ("frozen", f.frozen), ("pre_filtered", f.preFiltered)]

/-- The flags with one of them set by the name under which it is written; other names are ignored. -/
def set (f : Flags) (name : String) (value : Bool) : Flags :=
  if name = "proxy_target_class" then { f with proxyTargetClass := value }
  else if name = "optimize" then { f with optimize := value }
  else if name = "opaque" then { f with hidden := value }
  else if name = "expose_proxy" then { f with exposeProxy := value }
  else if name = "frozen" then { f with frozen := value }
  else if name = "pre_filtered" then { f with preFiltered := value }
  else f

/-- The one-line description of flags. -/
def inspect (f : Flags) : String :=
  Inspect.record "ProxyConfig" (f.entries.map fun e => (e.1, Inspect.bool e.2))

end Flags

end Weaving
