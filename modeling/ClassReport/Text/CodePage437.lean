import ClassReport.Bytes

/-!
# Code page 437

The character set of old archive names: ASCII, and one character for every byte above it.
-/

namespace ClassReport.CodePage437

/-- The characters of the bytes 80 to FF, in byte order. -/
def upper : String :=
  "ÇüéâäàåçêëèïîìÄÅÉæÆôöòûùÿÖÜ¢£¥₧ƒ" ++
  "áíóúñÑªº¿⌐¬½¼¡«»░▒▓│┤╡╢╖╕╣║╗╝╜╛┐" ++
  "└┴┬├─┼╞╟╚╔╩╦╠═╬╧╨╤╥╙╘╒╓╫╪┘┌█▄▌▐▀" ++
  "αßΓπΣσµτΦΘΩδ∞φε∩≡±≥≤⌠⌡÷≈°∙·√ⁿ²■\xa0"

def charOf (b : UInt8) : Char :=
  if b.toNat < 0x80 then Char.ofNat b.toNat
  else (upper.toList[b.toNat - 0x80]?).getD '\uFFFD'

def decode (bs : Bytes) : String := String.ofList (bs.map charOf)

end ClassReport.CodePage437
