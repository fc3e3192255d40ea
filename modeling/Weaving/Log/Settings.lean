import Weaving.Failure
import Weaving.Log.Filter
import Weaving.Toml.Document

/-
How log lines are to be shown, and where that is said: the table `logging` of a document, or
variables of the environment.
-/
namespace Weaving

namespace Level

/-- A level as a word with a capital. -/
def inspect (l : Level) : String := l.name.capitalize

/-- The level with a name; a warning has two. -/
def ofName? (name : String) : Option Level :=
  if name = "warning" then some .warn else all.find? (·.name = name)

/--
The level that a text names in either case.  No name has a letter that is the lower case of a letter
outside ASCII.
-/
def ofText (text : String) : Except String Level :=
  match ofName? text.toLower with
  | some level => .ok level
  | none => .error ("Invalid log level: " ++ text)

/-- The level that a text names, or another one. -/
def ofTextOr (default : Level) (text : String) : Level := (ofText text).toOption.getD default

end Level

namespace Log

/-- How lines are laid out. -/
inductive Format where
  /-- Short lines. -/
  | compact
  /-- Full lines. -/
  | full
  /-- One record a line. -/
  | json
  /-- Several lines for one, for reading. -/
  | pretty
  deriving DecidableEq, Inhabited

namespace Format

/-- The layouts. -/
def all : List Format := [.compact, .full, .json, .pretty]

/-- The name of a layout. -/
def name : Format → String
  | .compact => "compact"
  | .full => "full"
  | .json => "json"
  | .pretty => "pretty"

/-- A layout as a word with a capital. -/
def inspect (f : Format) : String := f.name.capitalize

/-- The layout with a name. -/
def ofName? (name : String) : Option Format := all.find? (·.name = name)

/-- The layout that a text names in either case. -/
def ofText (text : String) : Except String Format :=
  match ofName? text.toLower with
  | some format => .ok format
  | none => .error ("Invalid log format: " ++ text)

/-- The layout that a text names, or another one. -/
def ofTextOr (default : Format) (text : String) : Format := (ofText text).toOption.getD default

end Format

/-- How log lines are to be shown. -/
structure Settings where
  /-- The gravest lines are shown, up to this level. -/
  level : Level := .info
  /-- How lines are laid out. -/
  format : Format := .compact
  /-- Lines show the time. -/
  showTimestamp : Bool := true
  /-- Lines show where they come from. -/
  showTarget : Bool := false
  /-- Lines show the number of their thread. -/
  showThreadIds : Bool := false
  /-- Lines show the name of their thread. -/
  showThreadNames : Bool := false
  /-- A filter that takes the place of the level. -/
  filter : Option String := none
  deriving DecidableEq

namespace Settings

/-- Shows or hides number and name of threads. -/
def showThreads (s : Settings) (shown : Bool) : Settings :=
  { s with showThreadIds := shown, showThreadNames := shown }

/--
The settings with one of them set by name, levels and layouts being named in either case.  A name
that means nothing, or a value that does not fit, changes nothing.
-/
def set (s : Settings) : String → Toml.Node → Settings
  | "level", .text text => { s with level := .ofTextOr s.level text }
  | "format", .text text => { s with format := .ofTextOr s.format text }
  | "show_timestamp", .flag shown => { s with showTimestamp := shown }
  | "show_target", .flag shown => { s with showTarget := shown }
  | "show_threads", .flag shown => s.showThreads shown
  | "filter", .text text => { s with filter := some text }
  | _, _ => s

/-- A choice in a document, or a default if there is none. -/
def choiceOr {α : Type} (ofName? : String → Option α) (default : α) : Option Toml.Node → Option α
  | none => some default
  | some node => node.choice?.bind ofName?

/-- A text in a document that may be missing. -/
def textOf? : Option Toml.Node → Option (Option String)
  | none => some none
  | some (.text text) => some (some text)
  | some _ => none

/-- The settings that a value in a document says, by key or in order. -/
def ofNode? (node : Toml.Node) : Option Settings := do
  if !node.hasParts then none
  let standard : Settings := {}
  return {
    level := ← choiceOr Level.ofName? standard.level (node.part? 0 "level")
    format := ← choiceOr Format.ofName? standard.format (node.part? 1 "format")
    showTimestamp := ← Toml.Node.flagOr standard.showTimestamp (node.part? 2 "show_timestamp")
    showTarget := ← Toml.Node.flagOr standard.showTarget (node.part? 3 "show_target")
    showThreadIds := ← Toml.Node.flagOr standard.showThreadIds (node.part? 4 "show_thread_ids")
    showThreadNames := ← Toml.Node.flagOr standard.showThreadNames (node.part? 5 "show_thread_names")
    filter := ← textOf? (node.part? 6 "filter") }

/-- The settings that the table `logging` of a document says. -/
def ofDocument? (text : String) : Option Settings := do
  let entries ← Toml.parse? text
  match Assoc.get? "logging" entries with
  | none => return {}
  | some node => ofNode? node

/-- The settings of a document. -/
def ofDocument (text : String) : Except AopError Settings :=
  match ofDocument? text with
  | some settings => .ok settings
  | none => .error (.configuration "Failed to parse logging config: no valid document of settings")

/-- The settings of an environment; what cannot be read says nothing. -/
def ofEnvironment (lookup : String → Option String) : Settings :=
  let standard : Settings := {}
  { standard with
    filter := lookup "RUST_LOG"
    level := (lookup "LOG_LEVEL").elim standard.level (Level.ofTextOr standard.level)
    format := (lookup "LOG_FORMAT").elim standard.format (Format.ofTextOr standard.format) }

/-- The filter in force: the one asked for if it can be read, or else the level. -/
def directive (s : Settings) : String :=
  match s.filter with
  | some text => if (Filter.parse? text).isSome then text else s.level.name
  | none => s.level.name

/-- Whether a line of a target is shown. -/
def admits (s : Settings) (target : String) (level : Level) : Bool :=
  ((Filter.parse? s.directive).getD []).admits target level

/-- The levels at which lines of a target are shown, gravest first. -/
def shownLevels (s : Settings) (target : String) : List Level := Level.all.filter (s.admits target)

/-- Whether shown lines show the time; two of the layouts always do. -/
def showsTime (s : Settings) : Bool :=
  match s.format with
  | .compact | .full => s.showTimestamp
  | .json | .pretty => true

/-- Installs settings in a program, which happens once; the answer is what is installed then. -/
def install (installed : Option Settings) (s : Settings) : Except AopError Settings :=
  match installed with
  | none => .ok s
  | some _ => .error (.configuration "Failed to initialize logging: logging is installed already")

end Settings

end Log

end Weaving
