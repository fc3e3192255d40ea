/-
Regular expressions as they are used here: what stands behind them belongs to an engine, which writes a
text so that it stands for itself and compiles expressions, and may refuse to.
-/
namespace Weaving

/-- A compiled regular expression. -/
structure Regex where
  /-- The text it was compiled from. -/
  text : String
  /-- Whether it is found in a name. -/
  accepts : String → Bool

/-- An engine for regular expressions. -/
structure RegexEngine where
  /-- A text so written that it stands for itself in an expression. -/
  escape : String → String
  /-- Compiles an expression, unless it is malformed or too large. -/
  compile : String → Option Regex

end Weaving
