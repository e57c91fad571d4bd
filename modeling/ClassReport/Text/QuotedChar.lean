/-!
# Quoted Latin-1 characters

A byte shown to a reader as the character with that code: in single quotes, with short escapes for
the five characters that have one and the code in braces for every other invisible one.
-/

namespace ClassReport.QuotedChar

/-- The controls, the no-break space and the soft hyphen, none of which leaves a mark. -/
def isInvisible (code : Nat) : Bool :=
  code < 0x20 || (0x7F ≤ code && code ≤ 0xA0) || code == 0xAD

/-- A character as it stands between the quotes. -/
def escaped (code : UInt8) : String :=
  match Char.ofNat code.toNat with
  | '\x00' => "\\0"
  | '\t' => "\\t"
  | '\n' => "\\n"
  | '\r' => "\\r"
  | '\'' => "\\'"
  | '\\' => "\\\\"
  | c =>
    if isInvisible code.toNat then
      "\\u\x7b" ++ String.ofList (Nat.toDigits 16 code.toNat) ++ "\x7d"
    else c.toString

/-- The character with that Latin-1 code, in single quotes. -/
def render (code : UInt8) : String := "'" ++ escaped code ++ "'"

end ClassReport.QuotedChar
