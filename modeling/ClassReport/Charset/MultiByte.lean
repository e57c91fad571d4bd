import ClassReport.Bytes

/-!
# Kana in the charsets of East Asia

What the charsets of East Asia write for ASCII and for the kana: hiragana, katakana, the half-width katakana
and the marks that go with them. The national standards put hiragana and katakana into neighbouring rows
of a grid and keep their order, so a row number says where they are. These are codes for encoders that know
no ideographs and no hangul (`Encoders.kana`).
-/

namespace ClassReport.Charset

/-- A charset in which each character has a code of its own, of one or more bytes. -/
inductive MultiByte where
  | big5
  | eucJp
  | eucKr
  | gbk
  | gb18030
  | shiftJis
  deriving DecidableEq, Repr

namespace MultiByte

def pair (first second : Nat) : Bytes := [UInt8.ofNat first, UInt8.ofNat second]

/-- A code of two bytes, written as one number. -/
def wide (code : Nat) : Bytes := pair (code / 0x100) (code % 0x100)

/-! ### The grids -/

/-- The row of a kana, counted from that of hiragana, and its place in the row. -/
def kanaCell? (c : Char) : Option (Nat × Nat) :=
  if 0x3041 ≤ c.toNat ∧ c.toNat ≤ 0x3093 then some (0, c.toNat - 0x3040)
  else if 0x30A1 ≤ c.toNat ∧ c.toNat ≤ 0x30F6 then some (1, c.toNat - 0x30A0)
  else none

/-- The marks in the first row of the Japanese grid: code points and cells. -/
def jisMarks : List (Nat × Nat) :=
  [(0x3001, 2), (0x3002, 3), (0x30FB, 6), (0x309B, 11), (0x309C, 12), (0x30FD, 19), (0x30FE, 20),
    (0x309D, 21), (0x309E, 22), (0x30FC, 28), (0x300C, 54), (0x300D, 55)]

/-- Row and cell of a character in the Japanese grid, where hiragana is row 4. -/
def jisCell? (c : Char) : Option (Nat × Nat) :=
  match kanaCell? c with
  | some (row, cell) => some (4 + row, cell)
  | none => (jisMarks.lookup c.toNat).map fun cell => (1, cell)

/-- The place of a half-width katakana or mark, counted from U+FF61 as 1. -/
def halfWidth? (c : Char) : Option Nat :=
  if 0xFF61 ≤ c.toNat ∧ c.toNat ≤ 0xFF9F then some (c.toNat - 0xFF60) else none

/-- The full-width forms of the half-width katakana and marks, in order. -/
def fullWidth : List Nat :=
  [ 0x3002, 0x300C, 0x300D, 0x3001, 0x30FB, 0x30F2, 0x30A1, 0x30A3, 0x30A5, 0x30A7, 0x30A9,
    0x30E3, 0x30E5, 0x30E7, 0x30C3, 0x30FC, 0x30A2, 0x30A4, 0x30A6, 0x30A8, 0x30AA, 0x30AB,
    0x30AD, 0x30AF, 0x30B1, 0x30B3, 0x30B5, 0x30B7, 0x30B9, 0x30BB, 0x30BD, 0x30BF, 0x30C1,
    0x30C4, 0x30C6, 0x30C8, 0x30CA, 0x30CB, 0x30CC, 0x30CD, 0x30CE, 0x30CF, 0x30D2, 0x30D5,
    0x30D8, 0x30DB, 0x30DE, 0x30DF, 0x30E0, 0x30E1, 0x30E2, 0x30E4, 0x30E6, 0x30E8, 0x30E9,
    0x30EA, 0x30EB, 0x30EC, 0x30ED, 0x30EF, 0x30F3, 0x309B, 0x309C]

/-- A half-width katakana or mark in full width; any other character as it is. -/
def widen (c : Char) : Char :=
  match halfWidth? c with
  | some place => Char.ofNat (fullWidth[place - 1]?.getD c.toNat)
  | none => c

/-! ### The codes -/

/-- Shift JIS folds two rows of the Japanese grid into one lead byte. -/
def foldRows (row cell : Nat) : Bytes :=
  pair (0x81 + (row - 1) / 2)
    (if row % 2 = 0 then 0x9E + cell else if cell < 0x40 then 0x3F + cell else 0x40 + cell)

/-- The yen sign and the overline, which older Japanese sets have in the places of `\` and `~`. -/
def romanSign? (c : Char) : Option UInt8 :=
  match c with
  | '\u00A5' => some 0x5C
  | '\u203E' => some 0x7E
  | _ => none

/-- The code of a place of the Taiwanese grid, whose rows have 157 cells. -/
def taiwanese (place : Nat) : Bytes :=
  let cell := place % 157
  pair (0x81 + place / 157) (if cell < 0x3F then 0x40 + cell else 0x62 + cell)

/-- The place of the first kana in the Taiwanese grid; katakana follow hiragana there. -/
def taiwaneseKana : Nat := 10966

def taiwaneseMarks : List (Nat × Nat) :=
  [(0x30FD, 0xC6DA), (0x30FE, 0xC6DB), (0x309D, 0xC6DC), (0x309E, 0xC6DD), (0x30FC, 0xC6E3),
    (0x309B, 0xC8D4), (0x309C, 0xC8D5)]

def chineseMarks : List (Nat × Nat) :=
  [(0x30FC, 0xA960), (0x309B, 0xA961), (0x309C, 0xA962), (0x30FD, 0xA963), (0x30FE, 0xA964),
    (0x309D, 0xA966), (0x309E, 0xA967)]

/-- The four bytes of a character outside the basic plane: a number in mixed base. -/
def fourBytes (c : Char) : Bytes :=
  let n := 189000 + (c.toNat - 0x10000)
  [UInt8.ofNat (0x81 + n / 12600), UInt8.ofNat (0x30 + n / 1260 % 10),
    UInt8.ofNat (0x81 + n / 10 % 126), UInt8.ofNat (0x30 + n % 10)]

/-- The code of a kana in the Chinese grid, or of one of its marks. -/
def chinese? (c : Char) : Option Bytes :=
  match kanaCell? c with
  | some (row, cell) => some (pair (0xA4 + row) (0xA0 + cell))
  | none => (chineseMarks.lookup c.toNat).map wide

/-- The code of a character beyond ASCII, if it has one. -/
def upper? (charset : MultiByte) (c : Char) : Option Bytes :=
  match charset with
  | .big5 =>
    match kanaCell? c with
    | some (row, cell) => some (taiwanese (taiwaneseKana + row * 83 + (cell - 1)))
    | none => (taiwaneseMarks.lookup c.toNat).map wide
  | .eucKr => (kanaCell? c).map fun place => pair (0xAA + place.1) (0xA0 + place.2)
  | .gbk => chinese? c
  | .gb18030 => if 0x10000 ≤ c.toNat then some (fourBytes c) else chinese? c
  | .eucJp =>
    match romanSign? c, halfWidth? c, jisCell? c with
    | some sign, _, _ => some [sign]
    | none, some place, _ => some (pair 0x8E (0xA0 + place))
    | none, none, some (row, cell) => some (pair (0xA0 + row) (0xA0 + cell))
    | none, none, none => none
  | .shiftJis =>
    match romanSign? c, halfWidth? c, jisCell? c with
    | some sign, _, _ => some [sign]
    | none, some place, _ => some [UInt8.ofNat (0xA0 + place)]
    | none, none, some (row, cell) => some (foldRows row cell)
    | none, none, none => if c.toNat = 0x80 then some [0x80] else none

def code? (charset : MultiByte) (c : Char) : Option Bytes :=
  if c.toNat < 0x80 then some [UInt8.ofNat c.toNat] else charset.upper? c

end MultiByte

end ClassReport.Charset
