import ClassReport.Bytes
import ClassReport.Text.Utf16

/-!
# Forgiving UTF-8

Bytes as text, with U+FFFD for what is not well-formed: one for each byte that starts nothing, and
one for each longest piece that could have been the beginning of a character.
-/

namespace ClassReport.Utf8

/-- How many bytes follow a first byte, and between which bounds the next of them must lie. -/
def tails? (a : UInt8) : Option (Nat × UInt8 × UInt8) :=
  if a.toNat < 0xC2 then none
  else if a.toNat ≤ 0xDF then some (1, 0x80, 0xBF)
  else if a.toNat = 0xE0 then some (2, 0xA0, 0xBF)
  else if a.toNat = 0xED then some (2, 0x80, 0x9F)
  else if a.toNat ≤ 0xEF then some (2, 0x80, 0xBF)
  else if a.toNat = 0xF0 then some (3, 0x90, 0xBF)
  else if a.toNat ≤ 0xF3 then some (3, 0x80, 0xBF)
  else if a.toNat = 0xF4 then some (3, 0x80, 0x8F)
  else none

/-- The character whose bits so far are `value`, with `count` more bytes to come, the next of them
between the bounds. -/
def finish (value : Nat) : Nat → UInt8 → UInt8 → Bytes → Char × Bytes
  | 0, _, _, rest => (Char.ofNat value, rest)
  | _ + 1, _, _, [] => (Utf16.replacement, [])
  | count + 1, least, most, b :: rest =>
    if least ≤ b && b ≤ most then finish (value * 64 + b.toNat % 64) count 0x80 0xBF rest
    else (Utf16.replacement, b :: rest)

theorem finish_length_le (value count : Nat) (least most : UInt8) (rest : Bytes) :
    (finish value count least most rest).2.length ≤ rest.length := by
  induction count generalizing value least most rest with
  | zero => simp [finish]
  | succ count ih =>
    cases rest with
    | nil => simp [finish]
    | cons b rest =>
      simp only [finish]
      split
      · have h := ih (value * 64 + b.toNat % 64) 0x80 0xBF rest
        simp only [List.length_cons]
        omega
      · simp

/-- The first character of the bytes `a :: rest`, and the bytes behind it. -/
def firstChar (a : UInt8) (rest : Bytes) : Char × Bytes :=
  if a.toNat < 0x80 then (Char.ofNat a.toNat, rest)
  else
    match tails? a with
    | none => (Utf16.replacement, rest)
    | some (count, least, most) => finish (a.toNat % (0x40 >>> count)) count least most rest

theorem firstChar_length_le (a : UInt8) (rest : Bytes) :
    (firstChar a rest).2.length ≤ rest.length := by
  unfold firstChar
  split
  · simp
  · split
    · simp
    · exact finish_length_le _ _ _ _ _

/-- Appends the text of the bytes to `text`. -/
def decodeOnto (text : String) : Bytes → String
  | [] => text
  | a :: rest => decodeOnto (text.push (firstChar a rest).1) (firstChar a rest).2
termination_by bs => bs.length
decreasing_by
  have h := firstChar_length_le a rest
  simp only [List.length_cons]
  omega

def decode (bs : Bytes) : String := decodeOnto "" bs

end ClassReport.Utf8
