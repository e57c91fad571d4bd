import ClassReport.Bytes

/-!
# CRC-32

The checksum that archives keep of every entry: division by a fixed polynomial over the field of two
elements, lowest bit first.
-/

namespace ClassReport.Crc32

/-- The divisor, without its highest term, lowest bit first. -/
def polynomial : UInt32 := 0xEDB88320

/-- Divides one bit further. -/
def shift (crc : UInt32) : UInt32 :=
  if crc &&& 1 = 1 then (crc >>> 1) ^^^ polynomial else crc >>> 1

def step (crc : UInt32) (b : UInt8) : UInt32 :=
  Nat.repeat shift 8 (crc ^^^ b.toUInt32)

def ofBytes (bs : Bytes) : UInt32 := bs.foldl step 0xFFFFFFFF ^^^ 0xFFFFFFFF

end ClassReport.Crc32
