import ClassReport.Text.CodePage437
import ClassReport.Text.Utf8

/-!
# The directory of an archive

An archive ends with a record that says where its directory is; the directory has a header for each
entry. The record is looked for from the end backwards, and data in front of the archive shift all
its offsets alike. Large archives have a second, wider end record, with a locator in front of the
first one. `headers?` gives nothing for a file that is no archive.
-/

namespace ClassReport

/-- The bytes of a file, for access at any place. -/
abbrev FileData := Array UInt8

namespace FileData

/-- A number of `width` bytes at a place, the lowest byte first. -/
def number (data : FileData) (place : Nat) : Nat → Option Nat
  | 0 => some 0
  | width + 1 => do
    let low ← data[place]?
    let high ← number data (place + 1) width
    some (low.toNat + 256 * high)

/-- The bytes from `place` on, up to `length` of them. -/
def slice (data : FileData) (place length : Nat) : Bytes :=
  (data.extract place (place + length)).toList

/-- The bytes from `place` on, exactly `length` of them. -/
def piece? (data : FileData) (place length : Nat) : Option Bytes :=
  if place + length ≤ data.size then some (data.slice place length) else none

end FileData

namespace Archive

/-- What numbers of eight bytes can hold. -/
def numberLimit : Nat := 0x10000000000000000

/-- A field of four bytes with all bits set: the value stands elsewhere. -/
def elsewhere : Nat := 0xFFFFFFFF

/-! ### The end record -/

structure EndRecord where
  place : Nat
  disk : Nat
  directoryDisk : Nat
  entriesHere : Nat
  entriesInAll : Nat
  directorySize : Nat
  directoryOffset : Nat
  commentLength : Nat
  deriving Repr

namespace EndRecord

/-- The bytes of a record without a comment. -/
def minSize : Nat := 22

def maxComment : Nat := 65535

/-- Whether a record begins at a place. -/
def beginsAt (data : FileData) (place : Nat) : Bool := data.number place 4 == some 0x06054B50

/-- The last place from `place` down to `lowest` at which a record begins. -/
def search (data : FileData) (lowest : Nat) : Nat → Option Nat
  | 0 => if lowest = 0 && beginsAt data 0 then some 0 else none
  | place + 1 =>
    if place + 1 < lowest then none
    else if beginsAt data (place + 1) then some (place + 1)
    else search data lowest place

/-- The record at a place, if it is there with all of its comment. -/
def at? (data : FileData) (place : Nat) : Option EndRecord := do
  let disk ← data.number (place + 4) 2
  let directoryDisk ← data.number (place + 6) 2
  let entriesHere ← data.number (place + 8) 2
  let entriesInAll ← data.number (place + 10) 2
  let directorySize ← data.number (place + 12) 4
  let directoryOffset ← data.number (place + 16) 4
  let commentLength ← data.number (place + 20) 2
  let _ ← data.piece? (place + minSize) commentLength
  some { place, disk, directoryDisk, entriesHere, entriesInAll, directorySize, directoryOffset,
         commentLength }

def find? (data : FileData) : Option EndRecord :=
  if data.size < minSize then none
  else do
    let place ← search data (data.size - (minSize + maxComment)) (data.size - minSize)
    at? data place

/-- Whether some number did not fit into its field. -/
def isTooSmall (record : EndRecord) : Bool :=
  record.disk == 0xFFFF || record.directoryDisk == 0xFFFF || record.entriesHere == 0xFFFF ||
    record.entriesInAll == 0xFFFF || record.directorySize == elsewhere ||
    record.directoryOffset == elsewhere

end EndRecord

/-! ### The wide end record -/

/-- The locator of a wide end record. -/
structure Locator where
  directoryDisk : Nat
  recordOffset : Nat

/-- The locator in front of an end record, if there is one; it is counted from the end of the file. -/
def locator? (data : FileData) (record : EndRecord) : Option Locator := do
  let behind := 20 + EndRecord.minSize + record.commentLength
  if data.size < behind then none
  let place := data.size - behind
  let signature ← data.number place 4
  if signature ≠ 0x07064B50 then none
  let directoryDisk ← data.number (place + 4) 4
  let recordOffset ← data.number (place + 8) 8
  some { directoryDisk, recordOffset }

/-- Where the directory is: how far all offsets are shifted, where it starts, and how many headers it
has. -/
structure DirectoryPlace where
  shift : Nat
  start : Nat
  count : Nat

/-- The first place from `place` on, in `tries` tries, at which a wide end record begins. -/
def searchWide (data : FileData) : Nat → Nat → Option Nat
  | 0, _ => none
  | tries + 1, place =>
    if data.number place 4 = some 0x06064B50 then some place
    else searchWide data tries (place + 1)

/-- The directory as the wide end record has it. -/
def wideDirectory? (data : FileData) (record : EndRecord) (locator : Locator) :
    Option DirectoryPlace := do
  if !record.isTooSmall && record.disk != locator.directoryDisk then none
  if record.place < 60 then none
  let last := record.place - 60
  let place ← searchWide data (last + 1 - locator.recordOffset) locator.recordOffset
  let disk ← data.number (place + 16) 4
  let directoryDisk ← data.number (place + 20) 4
  let count ← data.number (place + 32) 8
  let offset ← data.number (place + 48) 8
  if disk ≠ directoryDisk then none
  let shift := place - locator.recordOffset
  if numberLimit ≤ offset + shift then none
  some { shift, start := offset + shift, count }

/-- The directory as the end record has it: it ends where the record begins. -/
def narrowDirectory? (record : EndRecord) : Option DirectoryPlace :=
  if record.place < record.directorySize + record.directoryOffset then none
  else
    let shift := record.place - record.directorySize - record.directoryOffset
    some { shift, start := record.directoryOffset + shift, count := record.entriesHere }

def directory? (data : FileData) : Option DirectoryPlace := do
  let record ← EndRecord.find? data
  if !record.isTooSmall && record.disk != record.directoryDisk then none
  match locator? data record with
  | some locator => wideDirectory? data record locator
  | none => narrowDirectory? record

/-! ### Headers -/

/-- An entry as the directory describes it. -/
structure Header where
  name : String
  /-- Whether the flag is set that marks encrypted data. -/
  isEncrypted : Bool
  /-- Whether an extra field tells of a cipher. It may do so without the flag. -/
  hasCipher : Bool
  method : Nat
  crc : UInt32
  compressedSize : Nat
  size : Nat
  start : Nat
  deriving DecidableEq, Repr

/-- The compression method that only says that an extra field tells more. -/
def encryptedMethod : Nat := 99

/-- A number of two bytes, the low one first. -/
def short (low high : UInt8) : Nat := low.toNat + 256 * high.toNat

/-- A number of eight bytes in front of a field, the lowest first, and the rest of the field. -/
def takeWide (field : Bytes) : Option (Nat × Bytes) :=
  (Bytes.split? 8 field).map fun parts =>
    (parts.1.foldr (fun b high => b.toNat + 256 * high) 0, parts.2)

namespace Header

/-- The value itself, or the wide one from the field if it stands there. -/
def takeNumber (value : Nat) (field : Bytes) : Option (Nat × Bytes) :=
  if value = elsewhere then takeWide field else some (value, field)

/-- The header with its wide numbers from the field, and the rest of the field. -/
def widen? (header : Header) (field : Bytes) : Option (Header × Bytes) := do
  let (size, field) ← takeNumber header.size field
  let (compressedSize, field) ← takeNumber header.compressedSize field
  let (start, field) ← takeNumber header.start field
  some ({ header with size, compressedSize, start }, field)

/-- The method behind the encryption that an extra field of seven bytes tells of: a version, the mark
of the field's maker, the strength of the key, and the method. -/
def encryptionMethod? : Bytes → Option Nat
  | [v0, v1, 0x41, 0x45, strength, m0, m1] =>
    if (short v0 v1 = 1 || short v0 v1 = 2) && 1 ≤ strength.toNat && strength.toNat ≤ 3 then
      some (short m0 m1)
    else none
  | _ => none

/-- The header with what its extra fields say; nothing if one of them is against the rules. A field that
is cut off ends the reading. -/
def withExtra? (header : Header) : Bytes → Option Header
  | k0 :: k1 :: l0 :: l1 :: field =>
    if short k0 k1 = 0x0001 then
      match header.widen? field with
      | none => some header
      | some (wide, rest) =>
        wide.withExtra? (field.drop (max (short l0 l1) (field.length - rest.length)))
    else if short k0 k1 = 0x9901 then
      if short l0 l1 ≠ 7 then none
      else if field.length < 7 then some header
      else
        match encryptionMethod? (field.take 7) with
        | none => none
        | some method => { header with method, hasCipher := true }.withExtra? (field.drop 14)
    else header.withExtra? (field.drop (short l0 l1))
  | _ => some header
termination_by extra => extra.length
decreasing_by all_goals simp only [List.length_drop, List.length_cons]; omega

end Header

/-- The header at a place and the place behind it, if a header is there. -/
def headerAt? (data : FileData) (shift place : Nat) : Option (Header × Nat) := do
  let signature ← data.number place 4
  if signature ≠ 0x02014B50 then none
  let flags ← data.number (place + 8) 2
  let method ← data.number (place + 10) 2
  let crc ← data.number (place + 16) 4
  let compressedSize ← data.number (place + 20) 4
  let size ← data.number (place + 24) 4
  let nameLength ← data.number (place + 28) 2
  let extraLength ← data.number (place + 30) 2
  let commentLength ← data.number (place + 32) 2
  let start ← data.number (place + 42) 4
  let name ← data.piece? (place + 46) nameLength
  let extra ← data.piece? (place + 46 + nameLength) extraLength
  let _ ← data.piece? (place + 46 + nameLength + extraLength) commentLength
  let written : Header :=
    { name := if flags.testBit 11 then Utf8.decode name else CodePage437.decode name
      isEncrypted := flags.testBit 0
      hasCipher := false
      method, crc := UInt32.ofNat crc, compressedSize, size, start }
  let header ← written.withExtra? extra
  if header.method = encryptedMethod && !header.hasCipher then none
  if numberLimit ≤ header.start + shift then none
  some ({ header with start := header.start + shift },
    place + 46 + nameLength + extraLength + commentLength)

/-- So many headers from a place on, if all of them are there. -/
def headersFrom (data : FileData) (shift : Nat) : Nat → Nat → Option (List Header)
  | 0, _ => some []
  | count + 1, place => do
    let (first, behind) ← headerAt? data shift place
    let others ← headersFrom data shift count behind
    some (first :: others)

/-- The entries of an archive in directory order; nothing if the file is no archive. -/
def headers? (data : FileData) : Option (List Header) := do
  let directory ← directory? data
  headersFrom data directory.shift directory.count directory.start

end Archive

end ClassReport
