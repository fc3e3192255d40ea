import Weaving.Failure
import Weaving.Log.Line
import Weaving.Proxy.Flags
import Weaving.Text.Blank
import Weaving.Toml.Document

/-
Where the flags of a proxy come from: the table `proxy` of a document, in which unknown keys say
nothing and missing ones leave a flag unset, and variables of the environment, which win over it.
-/
namespace Weaving

namespace Flags

/-- The flags that a value in a document says, by key or in order. -/
def ofNode? (node : Toml.Node) : Option Flags := do
  if !node.hasParts then none
  let flag (position : Nat) (key : String) : Option Bool :=
    Toml.Node.flagOr false (node.part? position key)
  return {
    proxyTargetClass := ← flag 0 "proxy_target_class"
    optimize := ← flag 1 "optimize"
    hidden := ← flag 2 "opaque"
    exposeProxy := ← flag 3 "expose_proxy"
    frozen := ← flag 4 "frozen"
    preFiltered := ← flag 5 "pre_filtered" }

/-- The flags that the table `proxy` of a document says. -/
def ofDocument? (text : String) : Option Flags := do
  let entries ← Toml.parse? text
  match Assoc.get? "proxy" entries with
  | none => return {}
  | some node => ofNode? node

/-- The flags of a document. -/
def ofDocument (text : String) : Except AopError Flags :=
  match ofDocument? text with
  | some flags => .ok flags
  | none => .error (.configuration "Failed to parse proxy config: no valid document of flags")

/-- The flags of a file, given what reading it gave, and what is logged. -/
def ofFile (path : String) : Except String String → Except AopError Flags × List LogLine
  | .ok text => (ofDocument text, [⟨.debug, "Loaded proxy config from " ++ path, []⟩])
  | .error reason =>
    (.error (.configuration ("Failed to read config file " ++ path ++ ": " ++ reason)), [])

/-- The variable of the environment that sets a flag. -/
def variableName (flag : String) : String := "INTERPOSE_PROXY_" ++ flag.toUpper

/--
The truth value that a word says, in either case and with blanks around it.  None of these words has
a letter that is the lower case of a letter outside ASCII.
-/
def truthOf? (raw : String) : Option Bool :=
  let word := (Blank.trim raw).toLower
  if ["true", "yes", "1", "on"].contains word then some true
  else if ["false", "no", "0", "off"].contains word then some false
  else none

/-- One flag set by the environment, if it is, and what is logged. -/
def override (lookup : String → Option String) (f : Flags) (flag : String) : Flags × List LogLine :=
  match lookup (variableName flag) with
  | none => (f, [])
  | some raw =>
    match truthOf? raw with
    | some value =>
      (f.set flag value,
        [⟨.debug, "Proxy config override " ++ variableName flag ++ "=" ++ Inspect.bool value, []⟩])
    | none => (f, [⟨.warn, "Ignoring invalid boolean for " ++ variableName flag ++ ": " ++ raw, []⟩])

/-- The flags set by the environment, in the order of the flags, and what is logged. -/
def withOverrides (lookup : String → Option String) (f : Flags) : Flags × List LogLine :=
  (f.entries.map (·.1)).foldl
    (fun (f, lines) flag =>
      let (changed, more) := override lookup f flag
      (changed, lines ++ more))
    (f, [])

end Flags

end Weaving
