import ClassReport.Charset.Encoder
import ClassReport.Charset.MultiByte

/-!
# ISO-2022-JP

A charset of three sets, in which an escape sequence says which set the bytes behind it belong to:
ASCII, the Roman set with the yen sign and the overline, and the Japanese grid, of which only the kana are
known here. A text starts in ASCII and is brought back to it at its end.
-/

namespace ClassReport.Charset.Iso2022Jp

/-- The set that the next bytes belong to. -/
inductive Mode where
  | ascii
  | roman
  | grid
  deriving DecidableEq, Repr

def Mode.escape : Mode → Bytes
  | .ascii => [0x1B, 0x28, 0x42]
  | .roman => [0x1B, 0x28, 0x4A]
  | .grid => [0x1B, 0x24, 0x42]

/-- Whether the Roman set has another sign in the place of an ASCII character. -/
def isReplacedInRoman (c : Char) : Bool := c == '\\' || c == '~'

/-- The set in which a character is written, and its bytes there. Characters that both ASCII and the
Roman set have do not leave the Roman set, and neither do references. For a control that would be taken
for a part of an escape sequence a reference to U+FFFD is written. -/
def place (mode : Mode) (c : Char) : Mode × Bytes :=
  let stay := if mode = .roman then Mode.roman else Mode.ascii
  if isShift c then (stay, reference '\uFFFD')
  else if c.toNat < 0x80 then
    (if isReplacedInRoman c then .ascii else stay, [UInt8.ofNat c.toNat])
  else
    match MultiByte.romanSign? c, MultiByte.jisCell? (MultiByte.widen c) with
    | some sign, _ => (.roman, [sign])
    | none, some (row, cell) => (.grid, MultiByte.pair (0x20 + row) (0x20 + cell))
    | none, none => (stay, reference c)

/-- The bytes of the characters, starting and ending as the charset asks. -/
def encodeFrom (mode : Mode) : List Char → Bytes
  | [] => if mode = .ascii then [] else Mode.ascii.escape
  | c :: rest =>
    let (next, bytes) := place mode c
    (if next = mode then [] else next.escape) ++ bytes ++ encodeFrom next rest

end ClassReport.Charset.Iso2022Jp
