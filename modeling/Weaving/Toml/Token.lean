/-
The tokens of a TOML document.  `Token.scan` goes through the characters once; a mode says inside
what the next character stands.  Blanks and line ends are tokens of their own, because a header ends
with its line and the brackets of a header of rows touch.  Comments leave nothing behind.
-/
namespace Weaving.Toml

/-- A token of a document. -/
inductive Token where
  /-- A space or a tab. -/
  | blank
  /-- The end of a line. -/
  | newline
  /-- A bracket, a brace, an equals sign, a comma or a dot. -/
  | mark (c : Char)
  /-- A run of letters, digits, underscores and signs. -/
  | word (chars : List Char)
  /-- A string; one that may span lines is no key. -/
  | text (chars : List Char) (spansLines : Bool)
  deriving DecidableEq

/-- A way to write a string. -/
structure Quote where
  /-- The quotation mark. -/
  mark : Char
  /-- Three marks at either end instead of one, with line ends allowed in between. -/
  spansLines : Bool
  deriving DecidableEq

namespace Quote

/-- Only between double quotes does a backslash begin an escape. -/
def escapes (q : Quote) : Bool := q.mark = '"'

end Quote

/-- What a string leaves out at the place that was reached. -/
inductive Skip where
  /-- Nothing. -/
  | nothing
  /-- One line end, right after the opening marks. -/
  | lineEnd
  /-- Blanks up to a line end, after a backslash that ends a line. -/
  | toLineEnd
  /-- Blanks and line ends, after that line end. -/
  | blanks
  deriving DecidableEq

/-- Inside what a character stands. -/
inductive Mode where
  /-- Between tokens. -/
  | plain
  /-- A comment. -/
  | comment
  /-- A string. -/
  | inside (q : Quote) (skip : Skip)
  /-- Right after a backslash in a string. -/
  | escape (q : Quote)
  /-- The digits of a character's number, as many as are still to come. -/
  | code (q : Quote) (left : Nat) (value : Nat)

namespace Token

/-- Whether a character may stand in a word. -/
def isWordChar (c : Char) : Bool := c.isAlphanum || c = '_' || c = '-' || c = '+'

/-- Whether a character is a token by itself. -/
def isMark (c : Char) : Bool := ['[', ']', '\x7b', '\x7d', '=', ',', '.'].contains c

/-- Whether a character may stand in a comment or a string as itself. -/
def isPrintable (c : Char) : Bool := c = '\t' || (32 ≤ c.toNat && c.toNat != 127)

/-- The tokens after a character that belongs to the string they begin with. -/
def extendText (c : Char) : List Token → List Token
  | .text chars spansLines :: rest => .text (c :: chars) spansLines :: rest
  | tokens => tokens

/-- The tokens after a character of a word, which may go on in the first of them. -/
def extendWord (c : Char) : List Token → List Token
  | .word chars :: rest => .word (c :: chars) :: rest
  | tokens => .word [c] :: tokens

/-- The character that a letter after a backslash stands for. -/
def escaped? (c : Char) : Option Char :=
  if c = 'b' then some '\x08'
  else if c = 't' then some '\t'
  else if c = 'n' then some '\n'
  else if c = 'f' then some '\x0c'
  else if c = 'r' then some '\r'
  else if c = '"' then some '"'
  else if c = '\\' then some '\\'
  else none

/-- The value of a hexadecimal digit. -/
def hexDigit? (c : Char) : Option Nat :=
  if c.isDigit then some (c.toNat - 48)
  else if 'a' ≤ c && c ≤ 'f' then some (c.toNat - 87)
  else if 'A' ≤ c && c ≤ 'F' then some (c.toNat - 55)
  else none

/-- The character with a number. -/
def charOf? (n : Nat) : Option Char := if n.isValidChar then some (Char.ofNat n) else none

/-- Whether the next characters are all the same mark. -/
def startsWithMarks (mark : Char) (count : Nat) (chars : List Char) : Bool :=
  chars.take count == List.replicate count mark

/-- The tokens of the characters that follow in a mode, unless they cannot be read. -/
def scan : Mode → List Char → Option (List Token)
  | .plain, [] => some []
  | .comment, [] => some []
  | _, [] => none
  | .plain, c :: rest =>
    if c = ' ' || c = '\t' then (scan .plain rest).map (.blank :: ·)
    else if c = '\n' then (scan .plain rest).map (.newline :: ·)
    else if c = '\r' then if rest.head? = some '\n' then scan .plain rest else none
    else if c = '#' then scan .comment rest
    else if c = '"' || c = '\'' then
      match rest with
      | a :: b :: more =>
        if a = c && b = c then scan (.inside ⟨c, true⟩ .lineEnd) more
        else scan (.inside ⟨c, false⟩ .nothing) (a :: b :: more)
      | more => scan (.inside ⟨c, false⟩ .nothing) more
    else if isMark c then (scan .plain rest).map (.mark c :: ·)
    else if isWordChar c then (scan .plain rest).map (extendWord c)
    else none
  | .comment, c :: rest =>
    if c = '\n' then (scan .plain rest).map (.newline :: ·)
    else if c = '\r' then if rest.head? = some '\n' then scan .comment rest else none
    else if isPrintable c then scan .comment rest
    else none
  | .inside q skip, c :: rest =>
    if c = '\n' then
      if !q.spansLines then none
      else if skip = .nothing then (scan (.inside q .nothing) rest).map (extendText c)
      else scan (.inside q (if skip = .lineEnd then .nothing else .blanks)) rest
    else if c = '\r' then
      if q.spansLines && rest.head? = some '\n' then scan (.inside q skip) rest else none
    else if (skip = .toLineEnd || skip = .blanks) && (c = ' ' || c = '\t') then
      scan (.inside q skip) rest
    else if skip = .toLineEnd then none
    else if c = q.mark then
      if !q.spansLines then (scan .plain rest).map (.text [] false :: ·)
      else if startsWithMarks c 5 rest then none
      else if startsWithMarks c 3 rest || !startsWithMarks c 2 rest then
        (scan (.inside q .nothing) rest).map (extendText c)
      else
        match rest with
        | _ :: _ :: more => (scan .plain more).map (.text [] true :: ·)
        | _ => none
    else if c = '\\' && q.escapes then scan (.escape q) rest
    else if isPrintable c then (scan (.inside q .nothing) rest).map (extendText c)
    else none
  | .escape q, c :: rest =>
    if c = 'u' then scan (.code q 4 0) rest
    else if c = 'U' then scan (.code q 8 0) rest
    else if q.spansLines && (c = ' ' || c = '\t') then scan (.inside q .toLineEnd) rest
    else if q.spansLines && c = '\n' then scan (.inside q .blanks) rest
    else if q.spansLines && c = '\r' then
      if rest.head? = some '\n' then scan (.inside q .toLineEnd) rest else none
    else
      match escaped? c with
      | some meant => (scan (.inside q .nothing) rest).map (extendText meant)
      | none => none
  | .code q left value, c :: rest =>
    match hexDigit? c with
    | none => none
    | some digit =>
      if left ≤ 1 then
        match charOf? (16 * value + digit) with
        | some meant => (scan (.inside q .nothing) rest).map (extendText meant)
        | none => none
      else scan (.code q (left - 1) (16 * value + digit)) rest

/-- The tokens of a document; a byte order mark in front of it is left out. -/
def ofString? (s : String) : Option (List Token) :=
  match s.toList with
  | [] => some []
  | c :: rest => if c.toNat = 0xFEFF then scan .plain rest else scan .plain (c :: rest)

end Token

end Weaving.Toml
