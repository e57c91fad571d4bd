/-!
# UTF-16 code units

Text as a sequence of 16-bit units, in both directions. Reading is forgiving: a surrogate that
does not belong to a pair becomes the replacement character U+FFFD, and the unit behind a lone
high surrogate is read afresh.
-/

namespace ClassReport.Utf16

/-- The character that stands for what cannot be decoded. -/
def replacement : Char := '\uFFFD'

/-- The first half of a surrogate pair: D800 to DBFF. -/
def isHigh (unit : UInt16) : Bool := 0xD800 ≤ unit.toNat && unit.toNat ≤ 0xDBFF

/-- The second half of a surrogate pair: DC00 to DFFF. -/
def isLow (unit : UInt16) : Bool := 0xDC00 ≤ unit.toNat && unit.toNat ≤ 0xDFFF

/-- The supplementary character of a surrogate pair. -/
def ofPair (high low : UInt16) : Char :=
  Char.ofNat (0x10000 + (high.toNat - 0xD800) * 0x400 + (low.toNat - 0xDC00))

/-- The character of a unit that is no half of a pair. -/
def ofUnit (unit : UInt16) : Char :=
  if isHigh unit || isLow unit then replacement else Char.ofNat unit.toNat

/-- Appends the text of the units to `text`. -/
def decodeOnto (text : String) : List UInt16 → String
  | [] => text
  | high :: low :: rest =>
    if isHigh high && isLow low then decodeOnto (text.push (ofPair high low)) rest
    else decodeOnto (text.push (ofUnit high)) (low :: rest)
  | [unit] => text.push (ofUnit unit)

/-- The text of a sequence of units, with U+FFFD for every surrogate that has no partner. -/
def decode (units : List UInt16) : String := decodeOnto "" units

/-- One unit for a character of the basic plane, a surrogate pair for any other. -/
def encodeChar (c : Char) : List UInt16 :=
  if c.toNat < 0x10000 then [UInt16.ofNat c.toNat]
  else
    [UInt16.ofNat (0xD800 + (c.toNat - 0x10000) / 0x400),
      UInt16.ofNat (0xDC00 + (c.toNat - 0x10000) % 0x400)]

def encode (text : String) : List UInt16 := text.toList.flatMap encodeChar

def bigEndian (unit : UInt16) : List UInt8 :=
  [UInt8.ofNat (unit.toNat / 256), UInt8.ofNat (unit.toNat % 256)]

def littleEndian (unit : UInt16) : List UInt8 :=
  [UInt8.ofNat (unit.toNat % 256), UInt8.ofNat (unit.toNat / 256)]

end ClassReport.Utf16
