import SynthControl.Text.Unprintable
import SynthControl.Text.Combining

/-!
# Quoted text

A text between double quotes in which nothing can be mistaken: the usual short escapes, and the code
point in braces for every combining or unprintable character.  An apostrophe cannot be mistaken, and stays
as it is.

* `quotedChar` — the written form of one character;
* `quoted` — the written form of a text.
-/

namespace SynthControl.Text

/-- The code point of a character, in lower-case hexadecimal digits between braces. -/
def codePoint (c : Char) : List Char :=
  ['\\', 'u', '\x7b'] ++ Nat.toDigits 16 c.toNat ++ ['\x7d']

/-- The written form of one character. -/
def quotedChar (c : Char) : List Char :=
  if c = '\x00' then ['\\', '0']
  else if c = '\t' then ['\\', 't']
  else if c = '\r' then ['\\', 'r']
  else if c = '\n' then ['\\', 'n']
  else if c = '\\' then ['\\', '\\']
  else if c = '\x22' then ['\\', c]
  else if isCombining c || isUnprintable c then codePoint c
  else [c]

/-- The written form of a text, between double quotes. -/
def quoted (s : String) : String :=
  "\"" ++ String.ofList (s.toList.flatMap quotedChar) ++ "\""

end SynthControl.Text
