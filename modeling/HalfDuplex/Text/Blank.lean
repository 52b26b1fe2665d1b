/-!
# Blank characters

`isBlank` is the White_Space property of the character database: the five control characters
from tab to carriage return, the space, the two Latin-1 blanks, and the blanks and line
separators of the general punctuation, Ogham and ideographic blocks.

* `trim` drops blanks at both ends and keeps those inside.
* `asciiLower` lowers the letters A to Z and nothing else.
-/

namespace HalfDuplex

namespace Text

/-- The ranges of blank characters. -/
def blankRanges : List (Nat × Nat) :=
  [(0x09, 0x0D), (0x20, 0x20), (0x85, 0x85), (0xA0, 0xA0), (0x1680, 0x1680), (0x2000, 0x200A),
    (0x2028, 0x2029), (0x202F, 0x202F), (0x205F, 0x205F), (0x3000, 0x3000)]

/-- Whether a character is blank. -/
def isBlank (c : Char) : Bool :=
  blankRanges.any fun (low, high) => low ≤ c.toNat && c.toNat ≤ high

/-- The text without the blanks at its ends. -/
def trim (s : String) : String :=
  String.ofList ((s.toList.dropWhile isBlank).reverse.dropWhile isBlank).reverse

/-- The text with the letters A to Z in lower case. -/
def asciiLower (s : String) : String :=
  String.ofList (s.toList.map Char.toLower)

end Text

end HalfDuplex
