import Weaving.Pattern.Engine

/-
Wildcard patterns over names.  The pattern that is a lone star accepts every text, and one without
stars accepts itself.  Any other is made a regular expression: its pieces between the stars, written
so that they stand for themselves, with a dot and a star between them, from the start of the text to its
end.  Where an engine refuses that expression, the pattern accepts itself only.
-/
namespace Weaving

/-- A wildcard pattern, with its expression if it needs one. -/
structure Wildcard where
  /-- The pattern as it was written. -/
  text : String
  /-- The compiled expression, if the pattern needs one and an engine has compiled it. -/
  regex : Option Regex

namespace Wildcard

/-- What stands between the stars of a pattern. -/
def pieces (text : String) : List String := (text.toList.splitOn '*').map String.ofList

/-- The regular expression of a pattern. -/
def expression (engine : RegexEngine) (text : String) : String :=
  "^" ++ ".*".intercalate ((pieces text).map engine.escape) ++ "$"

/-- The pattern that a text stands for. -/
def ofText (engine : RegexEngine) (text : String) : Wildcard where
  text := text
  regex :=
    if text ≠ "*" ∧ '*' ∈ text.toList then engine.compile (expression engine text) else none

/-- Whether a pattern accepts a text. -/
def accepts (w : Wildcard) (s : String) : Bool :=
  if w.text = "*" then true
  else
    match w.regex with
    | some regex => regex.accepts s
    | none => w.text = s

end Wildcard

end Weaving
