import Weaving.Pattern.Engine

/-
An engine for a part of the language of regular expressions: literals, the dot, classes of ranges,
anchors, groups, alternatives and repetitions, with an optional mark in front that makes letters match
in either case.  Whatever else the language has is refused: classes with names and class operators,
other flags, escapes that stand for something else than the character after the backslash.  Letters
have a second case here if they are Latin, Greek or Cyrillic.

Matching goes over the places of a text, a row of marks with one for the place before each character
and one for the end.  An expression takes the marks of the places where it may begin to those where it
may have ended, so the work is bounded by the sizes of expression and text however the two match.
-/
namespace Weaving

/-- A set of characters: ranges, possibly complemented, possibly blind to case. -/
structure CharSet where
  /-- The ranges, both ends included. -/
  ranges : List (Char × Char)
  /-- Whether the set holds what the ranges leave out. -/
  negated : Bool
  /-- Whether a letter counts as in a range when its other case is. -/
  foldCase : Bool
  deriving DecidableEq

namespace CharSet

/-- The characters that differ from a character in case only, itself included. -/
def caseVariants (c : Char) : List Char :=
  let n := c.toNat
  if c.isLower then
    c :: c.toUpper :: (if c = 's' then ['ſ'] else if c = 'k' then [Char.ofNat 0x212A] else [])
  else if c.isUpper then
    c :: c.toLower :: (if c = 'S' then ['ſ'] else if c = 'K' then [Char.ofNat 0x212A] else [])
  else if c = 'ſ' then [c, 's', 'S']
  else if n = 0x212A then [c, 'k', 'K']
  else if (0xC0 ≤ n && n ≤ 0xDE && n != 0xD7) || (0x391 ≤ n && n ≤ 0x3A9) || (0x410 ≤ n && n ≤ 0x42F) then
    [c, Char.ofNat (n + 32)]
  else if (0xE0 ≤ n && n ≤ 0xFE && n != 0xF7) || (0x3B1 ≤ n && n ≤ 0x3C9) || (0x430 ≤ n && n ≤ 0x44F) then
    [c, Char.ofNat (n - 32)]
  else [c]

/-- Whether a character lies in one of the ranges. -/
def inRanges (ranges : List (Char × Char)) (c : Char) : Bool :=
  ranges.any fun r => r.1 ≤ c && c ≤ r.2

/-- Whether a set holds a character. -/
def has (s : CharSet) (c : Char) : Bool :=
  let inside := if s.foldCase then (caseVariants c).any (inRanges s.ranges) else inRanges s.ranges c
  inside != s.negated

end CharSet

/-- What a regular expression matches. -/
inductive RegexBody where
  /-- The empty text. -/
  | empty
  /-- One character of a set. -/
  | one (set : CharSet)
  /-- The start of the text. -/
  | start
  /-- The end of the text. -/
  | finish
  /-- One after the other. -/
  | seq (first second : RegexBody)
  /-- Either. -/
  | alt (left right : RegexBody)
  /-- Any number of times. -/
  | star (body : RegexBody)
  deriving DecidableEq

namespace RegexBody

/-- The places that either of two rows marks. -/
def orMarks (left right : List Bool) : List Bool := List.zipWith (· || ·) left right

/-- The places after a character of a set. -/
def advance (set : CharSet) (s : List Char) (marks : List Bool) : List Bool :=
  false :: List.zipWith (fun c mark => mark && set.has c) s marks

/-- The mark of the first place only. -/
def keepFirst : List Bool → List Bool
  | [] => []
  | mark :: later => mark :: later.map fun _ => false

/-- The mark of the last place only. -/
def keepLast (marks : List Bool) : List Bool := (keepFirst marks.reverse).reverse

/-- The marks that some rounds reach, those of no round included. -/
def rounds (once : List Bool → List Bool) : Nat → List Bool → List Bool
  | 0, marks => marks
  | n + 1, marks => rounds once n (orMarks marks (once marks))

/-- The places of a text where an expression may have ended, from those where it may begin.  A round of
a repetition that counts takes a character, so there are no more rounds than characters. -/
def spread (s : List Char) : RegexBody → List Bool → List Bool
  | .empty, marks => marks
  | .one set, marks => advance set s marks
  | .start, marks => keepFirst marks
  | .finish, marks => keepLast marks
  | .seq a b, marks => spread s b (spread s a marks)
  | .alt a b, marks => orMarks (spread s a marks) (spread s b marks)
  | .star a, marks => rounds (spread s a) s.length marks

/-- Whether an expression matches somewhere in a text. -/
def search (r : RegexBody) (s : List Char) : Bool :=
  (spread s r (List.replicate (s.length + 1) true)).any id

/-- An expression a fixed number of times. -/
def times (r : RegexBody) : Nat → RegexBody
  | 0 => .empty
  | n + 1 => .seq r (times r n)

/-- An expression up to a number of times. -/
def upTo (r : RegexBody) : Nat → RegexBody
  | 0 => .empty
  | n + 1 => .alt .empty (.seq r (upTo r n))

end RegexBody

namespace RegexBody

/-! ### Reading an expression -/

/-- The parts of an open group: finished alternatives, and the current one, last atom first. -/
structure Group where
  /-- The alternatives that a bar has ended. -/
  finished : List RegexBody
  /-- The atoms of the alternative being read, last first. -/
  atoms : List RegexBody

namespace Group

/-- A group with nothing in it yet. -/
def opened : Group := ⟨[], []⟩

/-- Whether nothing has been read in the group. -/
def isFresh (g : Group) : Bool := g.finished.isEmpty && g.atoms.isEmpty

/-- The alternative being read. -/
def current (g : Group) : RegexBody := g.atoms.foldl (fun rest atom => .seq atom rest) .empty

/-- What the whole group matches. -/
def body (g : Group) : RegexBody := g.finished.foldl (fun later done => .alt done later) g.current

/-- A group with one more atom. -/
def push (g : Group) (atom : RegexBody) : Group := { g with atoms := atom :: g.atoms }

/-- A group whose current alternative ends at a bar. -/
def bar (g : Group) : Group := ⟨g.current :: g.finished, []⟩

/-- A group whose last atom is changed, if there is one. -/
def onLast? (g : Group) (change : RegexBody → RegexBody) : Option Group :=
  match g.atoms with
  | [] => none
  | atom :: rest => some { g with atoms := change atom :: rest }

end Group

/-- What is being read. -/
inductive Mode where
  /-- Atoms and operators. -/
  | plain
  /-- The same right after a repetition, which a question mark makes lazy. -/
  | repetition
  /-- The character after a backslash. -/
  | escape
  /-- The mark after an opening parenthesis and a question mark. -/
  | groupMark
  /-- The inside of a class: ranges so far, the last single character, whether a range is open. -/
  | inClass (negated : Bool) (ranges : List (Char × Char)) (last : Option Char) (range fresh : Bool)
  /-- A repetition count: the lower number, and the upper one after a comma. -/
  | count (low : String) (high : Option String)

/-- The state of reading: open groups, innermost first, and what is being read. -/
structure Reading where
  /-- The group being read. -/
  group : Group
  /-- The groups around it, innermost first. -/
  outer : List Group
  /-- What is being read. -/
  mode : Mode
  /-- Whether letters match in either case. -/
  foldCase : Bool

namespace Reading

/-- One more atom in the group being read. -/
def push (r : Reading) (atom : RegexBody) : Reading := { r with group := r.group.push atom, mode := .plain }

/-- One literal character. -/
def literal (r : Reading) (c : Char) : Reading := r.push (.one ⟨[(c, c)], false, r.foldCase⟩)

/-- The last atom changed by an operator. -/
def repeated (r : Reading) (change : RegexBody → RegexBody) : Option Reading :=
  (r.group.onLast? change).map fun g => { r with group := g, mode := .repetition }

/-- The characters that stand for themselves after a backslash. -/
def isEscapable (c : Char) : Bool :=
  c.toNat < 0x80 && !c.isAlphanum && c != '<' && c != '>' && c != '\x08'

/-- The characters that classes use for more than ranges. -/
def isClassOperator (c : Char) : Bool := c = '\\' || c = '[' || c = '&' || c = '~'

/-- The ranges of a class with its last single character added. -/
def closeRange (ranges : List (Char × Char)) : Option Char → List (Char × Char)
  | none => ranges
  | some c => (c, c) :: ranges

/-- Ends a class. -/
def endClass (r : Reading) (negated : Bool) (ranges : List (Char × Char)) (last : Option Char)
    (range : Bool) : Reading :=
  let ranges := closeRange ranges last
  r.push (.one ⟨if range then ('-', '-') :: ranges else ranges, negated, r.foldCase⟩)

/-- Ends a repetition count. -/
def endCount (r : Reading) (low : String) : Option String → Option Reading
  | none => do
    let n ← low.toNat?
    r.repeated (·.times n)
  | some "" => do
    let n ← low.toNat?
    r.repeated fun a => .seq (a.times n) (.star a)
  | some high => do
    let n ← low.toNat?
    let m ← high.toNat?
    if n ≤ m then r.repeated (fun a => .seq (a.times n) (a.upTo (m - n))) else none

/-- Reads one character where atoms and operators stand. -/
def stepPlain (r : Reading) (c : Char) : Option Reading :=
  if c = '\\' then some { r with mode := .escape }
  else if c = '.' then some (r.push (.one ⟨[('\n', '\n')], true, false⟩))
  else if c = '^' then some (r.push .start)
  else if c = '$' then some (r.push .finish)
  else if c = '*' then r.repeated .star
  else if c = '+' then r.repeated fun a => .seq a (.star a)
  else if c = '?' && r.group.isFresh && !r.outer.isEmpty then some { r with mode := .groupMark }
  else if c = '?' then r.repeated fun a => .alt .empty a
  else if c = '\x7b' then some { r with mode := .count "" none }
  else if c = '[' then some { r with mode := .inClass false [] none false true }
  else if c = '(' then some { r with group := .opened, outer := r.group :: r.outer, mode := .plain }
  else if c = ')' then
    match r.outer with
    | [] => none
    | g :: outer => some { r with group := g.push r.group.body, outer := outer, mode := .plain }
  else if c = '|' then some { r with group := r.group.bar, mode := .plain }
  else some (r.literal c)

/-- Reads one character of a class. -/
def stepClass (r : Reading) (negated : Bool) (ranges : List (Char × Char)) (last : Option Char)
    (range fresh : Bool) (c : Char) : Option Reading :=
  if c = ']' && !(fresh && last.isNone) then some (r.endClass negated ranges last range)
  else if isClassOperator c then none
  else if c = '^' && fresh && !negated && last.isNone && ranges.isEmpty then
    some { r with mode := .inClass true ranges none false true }
  else if c = '-' && (range || last = some '-') then none
  else if range then
    match last with
    | some low =>
      if low ≤ c then some { r with mode := .inClass negated ((low, c) :: ranges) none false false }
      else none
    | none => none
  else if c = '-' && last.isSome then
    some { r with mode := .inClass negated ranges last true false }
  else some { r with mode := .inClass negated (closeRange ranges last) (some c) false false }

/-- Reads one character of a repetition count. -/
def stepCount (r : Reading) (low : String) (high : Option String) (c : Char) : Option Reading :=
  if c = '\x7d' then r.endCount low high
  else if c = ',' && high.isNone then some { r with mode := .count low (some "") }
  else if c.isDigit then
    some { r with mode :=
      match high with
      | none => .count (low.push c) none
      | some digits => .count low (some (digits.push c)) }
  else none

/-- Reads one character. -/
def step (r : Reading) (c : Char) : Option Reading :=
  match r.mode with
  | .plain => r.stepPlain c
  | .repetition => if c = '?' then some { r with mode := .plain } else r.stepPlain c
  | .escape => if isEscapable c then some (r.literal c) else none
  | .groupMark => if c = ':' then some { r with mode := .plain } else none
  | .inClass negated ranges last range fresh => r.stepClass negated ranges last range fresh c
  | .count low high => r.stepCount low high c

/-- What has been read, if nothing is left open. -/
def finished? (r : Reading) : Option RegexBody :=
  match r.mode, r.outer with
  | .plain, [] => some r.group.body
  | .repetition, [] => some r.group.body
  | _, _ => none

end Reading

/-- Reads a regular expression; none if it is malformed or has a part that is refused. -/
def read? (text : String) : Option RegexBody :=
  let chars := text.toList
  let foldCase := chars.take 4 = ['(', '?', 'i', ')']
  let start : Reading := ⟨.opened, [], .plain, foldCase⟩
  ((if foldCase then chars.drop 4 else chars).foldlM Reading.step start).bind Reading.finished?

end RegexBody

namespace RegexEngine

/-- The characters that mean something in a regular expression. -/
def metaCharacters : List Char :=
  ['\\', '.', '+', '*', '?', '(', ')', '|', '[', ']', '\x7b', '\x7d', '^', '$', '#', '&', '-', '~']

/-- A character so written that it stands for itself. -/
def quote (c : Char) : List Char := if c ∈ metaCharacters then ['\\', c] else [c]

/-- The engine of this module. -/
def simple : RegexEngine where
  escape text := String.ofList (text.toList.flatMap quote)
  compile expression :=
    (RegexBody.read? expression).map fun body => ⟨expression, fun name => body.search name.toList⟩

end RegexEngine

end Weaving
