import ClassReport.Bytes
import ClassReport.Text.Utf16

/-!
# Modified UTF-8

Class files write text as UTF-16 code units of one, two or three bytes each: NUL may take two
bytes, and a supplementary character is two surrogates of three bytes. A byte that starts no
complete unit stands for one unit U+FFFD, and reading goes on behind it.
-/

namespace ClassReport.ModifiedUtf8

/-- How many bytes a unit takes, read off its first byte. -/
inductive Width where
  | one
  | two
  | three
  | invalid
  deriving DecidableEq, Repr

/-- `0xxxxxxx`, `110xxxxx` and `1110xxxx` start a unit; no other byte does. -/
def Width.ofByte (b : UInt8) : Width :=
  if b.toNat < 0x80 then .one
  else if b.toNat / 32 = 6 then .two
  else if b.toNat / 16 = 14 then .three
  else .invalid

/-- The unit of a two-byte group: five bits, then six. -/
def ofTwo (a b : UInt8) : UInt16 := UInt16.ofNat (a.toNat % 32 * 64 + b.toNat % 64)

/-- The unit of a three-byte group: four bits, then six, then six. -/
def ofThree (a b c : UInt8) : UInt16 :=
  UInt16.ofNat (a.toNat % 16 * 4096 + b.toNat % 64 * 64 + c.toNat % 64)

/-- The first unit of the bytes `a :: rest`, and the bytes behind it. The top bits of the bytes
that continue a unit are not looked at. -/
def firstUnit (a : UInt8) (rest : Bytes) : UInt16 × Bytes :=
  match Width.ofByte a, rest with
  | .one, rest => (UInt16.ofNat a.toNat, rest)
  | .two, b :: rest => (ofTwo a b, rest)
  | .three, b :: c :: rest => (ofThree a b c, rest)
  | _, rest => (0xFFFD, rest)

theorem firstUnit_length_le (a : UInt8) (rest : Bytes) :
    (firstUnit a rest).2.length ≤ rest.length := by
  unfold firstUnit
  split <;> simp only [List.length_cons] <;> omega

/-- Appends the units of the bytes to `units`, which is kept in reverse. -/
def unitsOnto (units : List UInt16) : Bytes → List UInt16
  | [] => units.reverse
  | a :: rest => unitsOnto ((firstUnit a rest).1 :: units) (firstUnit a rest).2
termination_by bs => bs.length
decreasing_by
  have h := firstUnit_length_le a rest
  simp only [List.length_cons]
  omega

def units (bs : Bytes) : List UInt16 := unitsOnto [] bs

def decode (bs : Bytes) : String := Utf16.decode (units bs)

end ClassReport.ModifiedUtf8
