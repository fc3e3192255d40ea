import Weaving.Toml.Node
import Weaving.Toml.Token

/-
Reading TOML documents: tables under headers, dotted and quoted keys, tables between braces, lists,
truth values, integers and strings.

A document is a sequence of statements, and a statement is a line, or several when brackets are still
open at its end.  A reader of a part of a statement tells what is left of it, which is always less.
-/
namespace Weaving.Toml

/-- What is left of tokens when some have been read. -/
abbrev Rest (tokens : List Token) := { rest : List Token // rest.length < tokens.length }

namespace Rest

/-- What is left of the tokens after the first. -/
def tail (t : Token) (rest : List Token) : Rest (t :: rest) := ⟨rest, by simp⟩

/-- What is left of what was left. -/
def trans {tokens : List Token} (first : Rest tokens) (second : Rest first.val) : Rest tokens :=
  ⟨second.val, Nat.lt_trans second.property first.property⟩

/-- What is left when fewer tokens were there to begin with. -/
def weaken {fewer tokens : List Token} (r : Rest fewer) (h : fewer.length ≤ tokens.length) :
    Rest tokens :=
  ⟨r.val, Nat.lt_of_lt_of_le r.property h⟩

end Rest

/-- The tokens after blanks. -/
def skipBlanks : List Token → List Token
  | .blank :: rest => skipBlanks rest
  | tokens => tokens

/-- The tokens after blanks and line ends. -/
def skipSpace : List Token → List Token
  | .blank :: rest => skipSpace rest
  | .newline :: rest => skipSpace rest
  | tokens => tokens

theorem length_skipBlanks (tokens : List Token) : (skipBlanks tokens).length ≤ tokens.length := by
  fun_induction skipBlanks tokens with
  | case1 rest ih => exact Nat.le_succ_of_le ih
  | case2 => exact Nat.le_refl _

theorem length_skipSpace (tokens : List Token) : (skipSpace tokens).length ≤ tokens.length := by
  fun_induction skipSpace tokens with
  | case1 rest ih => exact Nat.le_succ_of_le ih
  | case2 rest ih => exact Nat.le_succ_of_le ih
  | case3 => exact Nat.le_refl _

/-- The key that a token is. -/
def key? : Token → Option String
  | .word chars => if chars.contains '+' then none else some (String.ofList chars)
  | .text chars false => some (String.ofList chars)
  | _ => none

/-- Reads the keys of a dotted key. -/
def keys (tokens : List Token) : Option (Key × Rest tokens) :=
  match tokens with
  | [] => none
  | .blank :: more => (keys more).map fun (key, r) => (key, r.weaken (Nat.le_succ _))
  | t :: more =>
    match key? t with
    | none => none
    | some first =>
      match h : skipBlanks more with
      | .mark '.' :: further =>
        have shorter : further.length < more.length :=
          Nat.lt_of_lt_of_le (by simp) (h ▸ length_skipBlanks more)
        (keys further).map fun (key, r) =>
          ({ key with path := first :: key.path }, r.weaken (Nat.le_succ_of_le (Nat.le_of_lt shorter)))
      | rest => some (⟨[], first⟩, ⟨rest, Nat.lt_succ_of_le (h ▸ length_skipBlanks more)⟩)
termination_by tokens.length
decreasing_by
  · simp
  · simp; omega

/-- The number that digits of a base say, underscores between them being left out. -/
def digits? (base : Nat) : List Char → Option Nat
  | [] => none
  | first :: rest => do
    let digit (c : Char) : Option Nat := do
      let value ← Token.hexDigit? c
      if value < base then some value else none
    let rec go (value : Nat) : List Char → Option Nat
      | [] => some value
      | '_' :: c :: more => do go (base * value + (← digit c)) more
      | c :: more => do go (base * value + (← digit c)) more
    go (← digit first) rest

/-- The number that decimal digits say; a leading zero stands alone. -/
def decimal? : List Char → Option Nat
  | ['0'] => some 0
  | '0' :: _ => none
  | chars => digits? 10 chars

/-- An integer of sixty-four bits. -/
def integer? (value : Int) : Option Node :=
  if -0x8000000000000000 ≤ value && value ≤ 0x7FFFFFFFFFFFFFFF then some (.integer value) else none

/-- The value that a word says. -/
def wordValue? : List Char → Option Node
  | ['t', 'r', 'u', 'e'] => some (.flag true)
  | ['f', 'a', 'l', 's', 'e'] => some (.flag false)
  | '0' :: 'x' :: chars => (digits? 16 chars).bind fun n => integer? n
  | '0' :: 'o' :: chars => (digits? 8 chars).bind fun n => integer? n
  | '0' :: 'b' :: chars => (digits? 2 chars).bind fun n => integer? n
  | '-' :: chars => (decimal? chars).bind fun n => integer? (-n)
  | '+' :: chars => (decimal? chars).bind fun n => integer? n
  | chars => (decimal? chars).bind fun n => integer? n

mutual

/-- Reads a value. -/
def value (tokens : List Token) : Option (Node × Rest tokens) :=
  match tokens with
  | .blank :: more => (value more).map fun (node, r) => (node, r.weaken (Nat.le_succ _))
  | .word chars :: more => (wordValue? chars).map fun node => (node, Rest.tail _ more)
  | .text chars spansLines :: more =>
    some (.text (String.ofList chars), Rest.tail (.text chars spansLines) more)
  | .mark c :: more =>
    if c = '[' then
      (items more).map fun (nodes, r) => (.array nodes, r.weaken (Nat.le_succ _))
    else if c = '\x7b' then
      match h : skipBlanks more with
      | .mark '\x7d' :: rest =>
        some (.table .braces [], ⟨rest, by
          have := length_skipBlanks more
          simp [h] at this ⊢
          omega⟩)
      | _ =>
        (pairs more []).map fun (entries, r) => (.table .braces entries, r.weaken (Nat.le_succ _))
    else none
  | _ => none
termination_by 2 * tokens.length
decreasing_by all_goals (simp; try omega)

/-- Reads the items of a list up to its closing bracket; a comma may stand after the last. -/
def items (tokens : List Token) : Option (List Node × Rest tokens) :=
  match h : skipSpace tokens with
  | .mark ']' :: rest =>
    some ([], ⟨rest, by
      have := length_skipSpace tokens
      simp [h] at this
      omega⟩)
  | start =>
    have bound : start.length ≤ tokens.length := h ▸ length_skipSpace tokens
    match value start with
    | none => none
    | some (node, r) =>
      have shorter : r.val.length < tokens.length := Nat.lt_of_lt_of_le r.property bound
      match h' : skipSpace r.val with
      | .mark ',' :: more =>
        have fewer : more.length < tokens.length := by
          have := length_skipSpace r.val
          simp [h'] at this
          omega
        (items more).map fun (nodes, r') => (node :: nodes, r'.weaken (Nat.le_of_lt fewer))
      | .mark ']' :: more =>
        some ([node], ⟨more, by
          have := length_skipSpace r.val
          simp [h'] at this
          omega⟩)
      | _ => none
termination_by 2 * tokens.length + 1
decreasing_by all_goals omega

/-- Reads the keys and values of a table up to its closing brace. -/
def pairs (tokens : List Token) (known : Entries) : Option (Entries × Rest tokens) :=
  match keys tokens with
  | none => none
  | some (key, r) =>
    match h : r.val with
    | .mark '=' :: start =>
      have bound : start.length < tokens.length := by
        have := r.property
        simp [h] at this
        omega
      match value start with
      | none => none
      | some (node, r') =>
        have shorter : r'.val.length < tokens.length := Nat.lt_trans r'.property bound
        match known.insert key node with
        | none => none
        | some entries =>
          match h' : skipBlanks r'.val with
          | .mark ',' :: more =>
            have fewer : more.length < tokens.length := by
              have := length_skipBlanks r'.val
              simp [h'] at this
              omega
            (pairs more entries).map fun (all, rest) => (all, rest.weaken (Nat.le_of_lt fewer))
          | .mark '\x7d' :: more =>
            some (entries, ⟨more, by
              have := length_skipBlanks r'.val
              simp [h'] at this
              omega⟩)
          | _ => none
    | _ => none
termination_by 2 * tokens.length + 1
decreasing_by all_goals omega

end

/-- A document as far as it has been read. -/
structure Reading where
  /-- The header in force. -/
  header : List String := []
  /-- The values so far. -/
  entries : Entries := []

namespace Reading

/-- The document after a header of a table. -/
def defineTable (d : Reading) (key : Key) : Option Reading := do
  return ⟨key.path ++ [key.last], ← d.entries.defineTable key⟩

/-- The document after a header of rows. -/
def beginRow (d : Reading) (key : Key) : Option Reading := do
  return ⟨key.path ++ [key.last], ← d.entries.beginRow key⟩

/-- The document after a key and its value, in the table of the header in force. -/
def insert (d : Reading) (key : Key) (node : Node) : Option Reading := do
  return { d with entries := ← d.entries.atHeader (·.insert key node) d.header }

/-- The document after one statement. -/
def statement (d : Reading) (tokens : List Token) : Option Reading :=
  match skipBlanks tokens with
  | [] => some d
  | .mark '[' :: .mark '[' :: more => do
    let (key, r) ← keys more
    match r.val with
    | .mark ']' :: .mark ']' :: rest => if (skipBlanks rest).isEmpty then d.beginRow key else none
    | _ => none
  | .mark '[' :: more => do
    let (key, r) ← keys more
    match r.val with
    | .mark ']' :: rest => if (skipBlanks rest).isEmpty then d.defineTable key else none
    | _ => none
  | start => do
    let (key, r) ← keys start
    match r.val with
    | .mark '=' :: more =>
      let (node, rest) ← value more
      if (skipBlanks rest.val).isEmpty then d.insert key node else none
    | _ => none

end Reading

/-- The tokens of each statement: lines end where no bracket is open. -/
def statements (depth : Nat) : List Token → List (List Token)
  | [] => [[]]
  | t :: rest =>
    if t = .newline && depth = 0 then [] :: statements 0 rest
    else
      let inner := if t = .mark '[' then depth + 1 else if t = .mark ']' then depth - 1 else depth
      match statements inner rest with
      | first :: others => (t :: first) :: others
      | [] => [[t]]

/-- The values of a document, unless it is broken or says something twice. -/
def parse? (s : String) : Option Entries := do
  let tokens ← Token.ofString? s
  let d ← (statements 0 tokens).foldlM Reading.statement {}
  return d.entries

end Weaving.Toml
