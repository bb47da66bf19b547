/-!
# Blanks

Readers trim text by one of two sets: the Unicode property White_Space, or that property
together with the four information separators. `trim` drops a set at both ends.
-/

namespace OrderFlow.Text

/-- The characters with the property White_Space. -/
def isSpace (c : Char) : Bool :=
  let n := c.toNat
  (9 ≤ n && n ≤ 13) || n == 0x20 || n == 0x85 || n == 0xa0 || n == 0x1680
    || (0x2000 ≤ n && n ≤ 0x200a) || n == 0x2028 || n == 0x2029 || n == 0x202f
    || n == 0x205f || n == 0x3000

/-- White space and the information separators. -/
def isBlank (c : Char) : Bool :=
  isSpace c || (0x1c ≤ c.toNat && c.toNat ≤ 0x1f)

/-- A text without the characters of a set at either end. -/
def trim (p : Char → Bool) (cs : List Char) : List Char :=
  ((cs.dropWhile p).reverse.dropWhile p).reverse

/-- `trim` on strings. -/
def trimmed (p : Char → Bool) (s : String) : String :=
  String.ofList (trim p s.toList)

/-- ASCII capitals made small; all other characters stay. -/
def lower (s : String) : String :=
  s.map Char.toLower

/-- The words of a text: its longest pieces without blanks. -/
def words (cs : List Char) : List (List Char) :=
  go cs []
where
  /-- The words of the rest, with the letters of the open word in reverse. -/
  go : List Char → List Char → List (List Char)
    | [], word => if word.isEmpty then [] else [word.reverse]
    | c :: cs, word =>
      if isBlank c then
        if word.isEmpty then go cs [] else word.reverse :: go cs []
      else go cs (c :: word)

end OrderFlow.Text
