import ClassReport.Charset.Reference

/-!
# Encoders from outside

The charsets of East Asia have codes of several bytes, in tables with thousands of characters that are no
part of this library. What writes in these charsets is given from outside, as an `Encoder` for each of them.
Of an encoder only this is known: nothing is written for no text, ASCII at the beginning of a text stands for
itself, and what follows it is written as a text of its own.
-/

namespace ClassReport.Charset

/-- Whether a control would be taken for a part of an escape sequence. -/
def isShift (c : Char) : Bool := c == '\x0e' || c == '\x0f' || c == '\x1b'

/-- ASCII that is never taken for a part of an escape sequence. -/
def isPlain (c : Char) : Bool := c.toNat < 0x80 && !isShift c

theorem lt_of_isPlain {c : Char} (h : isPlain c = true) : c.toNat < 0x80 := by
  simp only [isPlain, Bool.and_eq_true, decide_eq_true_eq] at h
  exact h.1

/-- What writes texts in a charset whose codes are not kept here. -/
structure Encoder where
  write : List Char → Bytes
  write_nil : write [] = []
  /-- Every one of these charsets is ASCII below 80, and a text starts in ASCII in the one with escape
  sequences. -/
  write_plain : ∀ (c : Char) (rest : List Char), isPlain c = true →
    write (c :: rest) = UInt8.ofNat c.toNat :: write rest

/-- The encoder of a charset in which each character has a code of its own; a character without one is
written as a reference. -/
def Encoder.ofCodes (code? : Char → Option Bytes)
    (hplain : ∀ c, isPlain c = true → code? c = some [UInt8.ofNat c.toNat]) : Encoder where
  write text := text.flatMap fun c => (code? c).getD (reference c)
  write_nil := rfl
  write_plain c rest h := by
    rw [List.flatMap_cons, hplain c h]
    rfl

/-- An encoder for each of these charsets. -/
structure Encoders where
  big5 : Encoder
  eucJp : Encoder
  eucKr : Encoder
  gb18030 : Encoder
  gbk : Encoder
  iso2022Jp : Encoder
  shiftJis : Encoder

end ClassReport.Charset
