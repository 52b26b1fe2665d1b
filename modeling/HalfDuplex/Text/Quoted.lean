import HalfDuplex.Text.Unprintable

/-!
# Quoted text

A text of unknown content is shown between double quotes on one line.  The quote and the
backslash get a backslash before them, four controls have letters of their own, and any other
unprintable character is written by its number.

* `quoted` writes the text, quotes included.
-/

namespace HalfDuplex

namespace Text

/-- The characters that stand for `c` between the quotes. -/
def quotedChar (c : Char) : List Char :=
  if c = '\x00' then ['\\', '0']
  else if c = '\t' then ['\\', 't']
  else if c = '\r' then ['\\', 'r']
  else if c = '\n' then ['\\', 'n']
  else if c = '\\' then ['\\', '\\']
  else if c = '"' then ['\\', '"']
  else if isUnprintable c then
    ['\\', 'u', '\x7b'] ++ Nat.toDigits 16 c.toNat ++ ['\x7d']
  else [c]

/-- The text between quotes. -/
def quoted (s : String) : String :=
  String.ofList ('"' :: s.toList.flatMap quotedChar ++ ['"'])

end Text

end HalfDuplex
