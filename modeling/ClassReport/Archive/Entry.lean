import ClassReport.Archive.Crc32
import ClassReport.Archive.Directory
import ClassReport.Archive.Inflate
import ClassReport.Path

/-!
# The entries of an archive

An entry is opened and then read. Opening looks at the entry's own header, which says where its data
begin; reading unpacks the data and compares their checksum. What else the own header says is not
looked at, and neither is the unpacked size.
-/

namespace ClassReport.Archive

/-- Why an entry cannot be opened. -/
inductive OpenError where
  | encrypted
  /-- No entry begins at the place that the directory gives. -/
  | badHeader
  /-- The place that the directory gives lies behind the end. -/
  | beyondEnd
  | unknownMethod
  deriving DecidableEq, Repr

/-- The error in words, the outermost first. -/
def OpenError.messages : OpenError → List String
  | .encrypted => ["unsupported Zip archive: Password required to decrypt file"]
  | .badHeader => ["invalid Zip archive: Invalid local file header"]
  | .beyondEnd => ["failed to fill whole buffer", "failed to fill whole buffer"]
  | .unknownMethod => ["unsupported Zip archive: Compression method not supported"]

/-- Why the data of an entry cannot be read. -/
inductive DataError where
  | wrongChecksum
  | unpacking (cause : InflateError)
  deriving DecidableEq, Repr

def DataError.message : DataError → String
  | .wrongChecksum => "Invalid checksum"
  | .unpacking .corrupt => "corrupt deflate stream"
  | .unpacking .incomplete => "incomplete deflate stream"

/-- How the data of an entry are kept. -/
inductive Packing where
  | stored
  | deflated
  deriving DecidableEq, Repr

def Packing.ofMethod? : Nat → Option Packing
  | 0 => some .stored
  | 8 => some .deflated
  | _ => none

structure OpenEntry where
  packing : Packing
  packed : Bytes
  crc : UInt32

def dataStart (data : FileData) (header : Header) : Except OpenError Nat :=
  match data.number header.start 4 with
  | none => .error .beyondEnd
  | some signature =>
    if signature ≠ 0x04034B50 then .error .badHeader
    else
      match data.number (header.start + 26) 2, data.number (header.start + 28) 2 with
      | some nameLength, some extraLength => .ok (header.start + 30 + nameLength + extraLength)
      | _, _ => .error .beyondEnd

/-- Opens an entry. The flag of encryption is looked at first; a cipher without the flag is found only
when all else is in order. Data that the file does not have are left out. -/
def openEntry (data : FileData) (header : Header) : Except OpenError OpenEntry := do
  if header.isEncrypted then throw .encrypted
  let start ← dataStart data header
  match Packing.ofMethod? header.method with
  | none => throw .unknownMethod
  | some packing =>
    if header.hasCipher then throw .encrypted
    pure { packing, packed := data.slice start header.compressedSize, crc := header.crc }

def OpenEntry.read (entry : OpenEntry) : Except DataError Bytes := do
  let content ← match entry.packing with
    | .stored => pure entry.packed
    | .deflated => (Inflate.unpack entry.packed).mapError DataError.unpacking
  if Crc32.ofBytes content = entry.crc then pure content else throw .wrongChecksum

/-- Whether an entry of that name is a class of its own. -/
def isClassEntry (name : String) : Bool :=
  ".class".toList.isSuffixOf name.toList && !Path.isDescriptorClass name

end ClassReport.Archive
