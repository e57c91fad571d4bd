/-!
# White space

The characters with the Unicode property White_Space, and texts without them at either end.
-/

namespace ClassReport.Blank

/-- The code points with the property White_Space, in order. -/
def codes : List Nat :=
  [0x9, 0xA, 0xB, 0xC, 0xD, 0x20, 0x85, 0xA0, 0x1680, 0x2000, 0x2001, 0x2002, 0x2003, 0x2004,
    0x2005, 0x2006, 0x2007, 0x2008, 0x2009, 0x200A, 0x2028, 0x2029, 0x202F, 0x205F, 0x3000]

/-- White space in the sense of Unicode. -/
def isBlank (c : Char) : Bool := codes.contains c.toNat

/-- A text without the white space at its two ends. -/
def trim (text : String) : String :=
  String.ofList (((text.toList.dropWhile isBlank).reverse.dropWhile isBlank).reverse)

end ClassReport.Blank
