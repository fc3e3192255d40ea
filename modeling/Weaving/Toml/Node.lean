import Weaving.Assoc

/-
The tree of a TOML document, and what may be added to it where.

A table remembers how it came to be.  One written between braces is complete.  One that a header or a
dotted key only passed through may be gone through again, and a header may still define it; a table
that dotted keys made grows by dotted keys alone.  So no table is defined twice and no key comes
twice in a table.
-/
namespace Weaving.Toml

/-- How a table came to be. -/
inductive Origin where
  /-- A header, or the document itself. -/
  | header
  /-- A header of a table further in. -/
  | implied
  /-- A dotted key. -/
  | dotted
  /-- Braces. -/
  | braces
  deriving DecidableEq

/-- A value in a document. -/
inductive Node where
  /-- A truth value. -/
  | flag (value : Bool)
  /-- An integer. -/
  | integer (value : Int)
  /-- A string. -/
  | text (value : String)
  /-- A list between brackets. -/
  | array (items : List Node)
  /-- A table. -/
  | table (origin : Origin) (entries : List (String × Node))
  /-- A list of tables, each under a header of its own. -/
  | rows (rows : List (List (String × Node)))

/-- A dotted key: the keys of the tables on the way, and the key in the last of them. -/
structure Key where
  /-- The keys of the tables. -/
  path : List String
  /-- The key in the last table. -/
  last : String
  deriving DecidableEq

/-- The values of a table by key, in order. -/
abbrev Entries := List (String × Node)

namespace Entries

/--
Changes the table at the end of a path.  Tables that are missing on the way are made with an origin,
those that are there must be ones that may be entered, and the last row stands for a list of rows.
-/
def within (mayEnter : Origin → Bool) (made : Origin) (change : Origin → Entries → Option Entries) :
    List String → Origin → Entries → Option Entries
  | [], origin, entries => change origin entries
  | key :: path, _, entries =>
    match Assoc.get? key entries with
    | none =>
      (within mayEnter made change path made []).map fun inner =>
        Assoc.put key (.table made inner) entries
    | some (.table origin inner) =>
      if mayEnter origin then
        (within mayEnter made change path origin inner).map fun changed =>
          Assoc.put key (.table origin changed) entries
      else none
    | some (.rows rows) =>
      match rows.getLast? with
      | none => none
      | some row =>
        (within mayEnter made change path .header row).map fun changed =>
          Assoc.put key (.rows (rows.dropLast ++ [changed])) entries
    | some _ => none

/-- Changes the table that a header names. -/
def atHeader (change : Entries → Option Entries) (path : List String) (entries : Entries) :
    Option Entries :=
  within (· != .braces) .implied (fun _ => change) path .header entries

/-- Puts a value under a dotted key into a table. -/
def insert (key : Key) (value : Node) (entries : Entries) : Option Entries :=
  within (fun origin => origin = .implied || origin = .dotted) .dotted
    (fun origin inner =>
      if (origin = .dotted) != key.path.isEmpty && (Assoc.get? key.last inner).isNone then
        some (inner ++ [(key.last, value)])
      else none)
    key.path .header entries

/-- Defines the table of a header. -/
def defineTable (key : Key) (entries : Entries) : Option Entries :=
  atHeader
    (fun inner =>
      match Assoc.get? key.last inner with
      | none => some (inner ++ [(key.last, .table .header [])])
      | some (.table .implied known) => some (Assoc.put key.last (.table .header known) inner)
      | some _ => none)
    key.path entries

/-- Begins one more row under a header of rows. -/
def beginRow (key : Key) (entries : Entries) : Option Entries :=
  atHeader
    (fun inner =>
      match Assoc.get? key.last inner with
      | none => some (inner ++ [(key.last, .rows [[]])])
      | some (.rows rows) => some (Assoc.put key.last (.rows (rows ++ [[]])) inner)
      | some _ => none)
    key.path entries

end Entries

namespace Node

/-- Whether a value has parts: the values of a table, or the items of a list. -/
def hasParts : Node → Bool
  | .array _ | .table _ _ | .rows _ => true
  | .flag _ | .integer _ | .text _ => false

/-- The part with a key in a table, or at a position in a list. -/
def part? (position : Nat) (key : String) : Node → Option Node
  | .array items => items[position]?
  | .table _ entries => Assoc.get? key entries
  | .rows list => (list[position]?).map (.table .header)
  | .flag _ | .integer _ | .text _ => none

/-- Whether a value is an empty table or list. -/
def isEmpty : Node → Bool
  | .array items => items.isEmpty
  | .table _ entries => entries.isEmpty
  | .rows list => list.isEmpty
  | .flag _ | .integer _ | .text _ => false

/-- The truth value that a part must be, or another one if there is no such part. -/
def flagOr (default : Bool) : Option Node → Option Bool
  | none => some default
  | some (.flag value) => some value
  | some _ => none

/--
The name of a choice between alternatives without content: a string, or the key of the one empty
part of a table.
-/
def choice? : Node → Option String
  | .text name => some name
  | .table _ [(name, content)] => if content.isEmpty then some name else none
  | _ => none

end Node

end Weaving.Toml
