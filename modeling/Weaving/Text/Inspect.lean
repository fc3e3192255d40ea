/-
One-line descriptions of values for logs and diagnostics: quoted strings, lists, optional values,
named tuples and records.  Every description of the library is assembled from these five shapes.
-/
namespace Weaving.Inspect

/-- The hexadecimal digits of a number, most significant first. -/
def hexDigits (n : Nat) : String :=
  String.ofList (Nat.toDigits 16 n)

/-- How one character stands inside a quoted string. -/
def escaped (c : Char) : String :=
  if c = '"' then "\\\""
  else if c = '\\' then "\\\\"
  else if c = '\n' then "\\n"
  else if c = '\t' then "\\t"
  else if c = '\r' then "\\r"
  else if c.toNat = 0 then "\\0"
  else if c.toNat < 32 || (127 ≤ c.toNat && c.toNat < 160) then
    "\\u\x7b" ++ hexDigits c.toNat ++ "\x7d"
  else c.toString

/-- A string in double quotes, with quotes, backslashes and control characters escaped. -/
def quoted (s : String) : String :=
  "\"" ++ String.join (s.toList.map escaped) ++ "\""

/-- A list: its elements between brackets, separated by commas. -/
def list (items : List String) : String :=
  "[" ++ String.intercalate ", " items ++ "]"

/-- A list of strings, each quoted. -/
def quotedList (items : List String) : String :=
  list (items.map quoted)

/-- A value that may be missing. -/
def option : Option String → String
  | none => "None"
  | some text => "Some(" ++ text ++ ")"

/-- A named tuple. -/
def tuple (name : String) (items : List String) : String :=
  name ++ "(" ++ String.intercalate ", " items ++ ")"

/-- A record: its name, then its fields in order between braces. -/
def record (name : String) (fields : List (String × String)) : String :=
  name ++ " \x7b " ++ String.intercalate ", " (fields.map fun f => f.1 ++ ": " ++ f.2) ++ " \x7d"

/-- A truth value. -/
def bool (b : Bool) : String := if b then "true" else "false"

end Weaving.Inspect
