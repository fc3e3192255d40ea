/-
Blank characters, as Unicode's property White_Space lists them, and the words between them.
-/
namespace Weaving.Blank

/-- The ranges of the property White_Space, both ends included. -/
def ranges : List (Nat × Nat) :=
  [(0x9, 0xD), (0x20, 0x20), (0x85, 0x85), (0xA0, 0xA0), (0x1680, 0x1680), (0x2000, 0x200A),
   (0x2028, 0x2029), (0x202F, 0x202F), (0x205F, 0x205F), (0x3000, 0x3000)]

/-- Whether a character is blank. -/
def isBlank (c : Char) : Bool := ranges.any fun r => r.1 ≤ c.toNat && c.toNat ≤ r.2

/-- A word read so far, put in front of the words after it unless it is empty. -/
def consWord (word : List Char) (rest : List (List Char)) : List (List Char) :=
  if word.isEmpty then rest else word :: rest

/-- The words of a text, given the start of the word being read in reverse. -/
def wordsFrom (word : List Char) : List Char → List (List Char)
  | [] => consWord word.reverse []
  | c :: s => if isBlank c then consWord word.reverse (wordsFrom [] s) else wordsFrom (c :: word) s

/-- The longest pieces of a text without blanks, in order. -/
def words (s : List Char) : List (List Char) := wordsFrom [] s

/-- A text without the blanks at either end. -/
def trim (s : String) : String :=
  String.ofList ((s.toList.dropWhile isBlank).reverse.dropWhile isBlank).reverse

end Weaving.Blank
