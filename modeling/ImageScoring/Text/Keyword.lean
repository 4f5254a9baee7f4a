/-!
# Keywords

Settings are named by ASCII words in any case. Lower-casing is that of Unicode, under which
exactly one character beside the ASCII capitals becomes an ASCII letter: U+212A, the kelvin sign,
which becomes `k`. Every other character outside ASCII stays outside ASCII, so `lower` agrees with
full lower-casing about every comparison with an ASCII word.
-/

namespace ImageScoring.Text

/-- The lower case of a character, as far as an ASCII letter can come of it. -/
def lowerChar (c : Char) : Char :=
  if c.toNat == 0x212A then 'k' else c.toLower

/-- The lower case of a text, as far as ASCII words are concerned. -/
def lower (text : String) : String :=
  String.ofList (text.toList.map lowerChar)

/-- The value that a word of the list stands for, in any case. -/
def keyword? {α : Type} (words : List (String × α)) (text : String) : Option α :=
  words.lookup (lower text)

end ImageScoring.Text
