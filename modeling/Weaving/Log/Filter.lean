import Weaving.Log.Line
import Weaving.Text.Letter

/-
Log filters: which lines of which targets are shown.

A filter is a list of pieces between commas.  A piece sets the limit of everything or of the targets
whose text starts with a name; a limit shows the lines up to a level, or none.  Of the names that a
target starts with, the longest decides, and of two pieces for one name the later.
-/
namespace Weaving.Log

/-- A limit: lines up to a level are shown, or none. -/
abbrev Limit := Option Level

namespace Limit

/-- Whether a limit lets a level pass. -/
def admits (limit : Limit) (level : Level) : Bool :=
  match limit with
  | none => false
  | some l => level.rank ≤ l.rank

/-- The limit with a number, from silence at zero to everything at five. -/
def ofRank? (n : Nat) : Option Limit :=
  if n = 0 then some none else (Level.all.find? (·.rank = n)).map some

/-- The limit that digits say; a plus sign may stand before them. -/
def ofDigits? (chars : List Char) : Option Limit :=
  let digits := if chars.head? = some '+' then chars.tail else chars
  if digits.isEmpty || !digits.all Char.isDigit then none
  else ofRank? (digits.foldl (fun n c => 10 * n + (c.toNat - 48)) 0)

/-- The limit that a text says, in either case. -/
def ofText? (text : String) : Option Limit :=
  match Level.all.find? (·.name = text.toLower) with
  | some level => some (some level)
  | none => if text.toLower = "off" then some none else ofDigits? text.toList

end Limit

/-- A piece of a filter. -/
inductive Piece where
  /-- The limit of everything. -/
  | everything (limit : Limit)
  /-- The limit of the targets whose text starts with a name. -/
  | named (name : String) (limit : Limit)

namespace Piece

/-- Whether a piece may start with a character. -/
def mayStart (c : Char) : Bool := c = '_' || c = '-' || c = ':' || Letter.isLetterOrDigit c

/-- Reads a piece. -/
def parse? (chars : List Char) : Option Piece :=
  match chars with
  | [] => none
  | c :: _ =>
    if !mayStart c then none
    else
      let name := String.ofList (chars.takeWhile (· != '='))
      match chars.dropWhile (· != '=') with
      | [] =>
        match Limit.ofText? name with
        | some limit => some (.everything limit)
        | none => some (.named name (some .trace))
      | [_] => some (.named name (some .trace))
      | _ :: level => (Limit.ofText? (String.ofList level)).map (.named name)

end Piece

/-- A log filter. -/
abbrev Filter := List Piece

namespace Filter

/-- The texts between the commas of a text. -/
def split : List Char → List (List Char)
  | [] => [[]]
  | c :: rest =>
    if c = ',' then [] :: split rest
    else
      match split rest with
      | first :: others => (c :: first) :: others
      | [] => [[c]]

/-- Reads a filter, unless a piece of it is broken; empty pieces say nothing. -/
def parse? (text : String) : Option Filter :=
  ((split text.toList).filter (!·.isEmpty)).mapM Piece.parse?

/-- How well a piece fits a target: the length of its name, if the target starts with it. -/
def fit (target : String) : Piece → Option (Nat × Limit)
  | .everything limit => some (0, limit)
  | .named name limit =>
    if name.toList.isPrefixOf target.toList then some (name.length, limit) else none

/-- The limit of a target: the best fit, the later of two equally good ones. -/
def limitOf (f : Filter) (target : String) : Limit :=
  ((f.filterMap (fit target)).foldl
    (fun best next => if best.1 ≤ next.1 then next else best) (0, none)).2

/-- Whether a filter lets a line of a target pass. -/
def admits (f : Filter) (target : String) (level : Level) : Bool := (f.limitOf target).admits level

end Filter

end Weaving.Log
