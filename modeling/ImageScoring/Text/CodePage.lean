import ImageScoring.Text.Utf8

/-!
# Code page 437

The character set of names in archives that are not marked as UTF-8: ASCII in the lower half, and
letters, line drawings and symbols in the upper one.
-/

namespace ImageScoring.CodePage

/-- The characters of the octets from 128 on. -/
def upperHalf : List Char :=
  ("ÇüéâäàåçêëèïîìÄÅÉæÆôöòûùÿÖÜ¢£¥₧ƒáíóúñÑªº¿⌐¬½¼¡«»" ++
    "░▒▓│┤╡╢╖╕╣║╗╝╜╛┐└┴┬├─┼╞╟╚╔╩╦╠═╬╧╨╤╥╙╘╒╓╫╪┘┌█▄▌▐▀" ++
    "αßΓπΣσµτΦΘΩδ∞φε∩≡±≥≤⌠⌡÷≈°∙·√ⁿ²■\u00A0").toList

/-- Every octet of the upper half has a character. -/
example : upperHalf.length = 128 := by decide +kernel

/-- The character of an octet. -/
def char (b : UInt8) : Char :=
  if b < 0x80 then Char.ofNat b.toNat else upperHalf.getD (b.toNat - 0x80) Utf8.replacement

/-- The text of a byte string, written as UTF-8. -/
def toUtf8 (bs : Bytes) : Bytes :=
  Utf8.encode (bs.map char)

end ImageScoring.CodePage
