import ClassReport.Bytes

/-!
# Character references

What is written for a character that a charset has no code for.
-/

namespace ClassReport.Charset

/-- The decimal reference for a character, in ASCII: `&#233;` for an e with an acute accent. -/
def reference (c : Char) : Bytes :=
  s!"&#{c.toNat};".toList.map fun sign => UInt8.ofNat sign.toNat

end ClassReport.Charset
