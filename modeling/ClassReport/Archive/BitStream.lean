import ClassReport.Bytes
import ClassReport.FailingState

/-!
# Bit streams

The bits of compressed data: bytes in order, the lowest bit of each first. Readers of such a stream
compose like readers of bytes; `NoGrowth` says that a reader does not lengthen the stream and
`Strict` that it takes at least one bit, and these two end the loops of the decompressor.
-/

namespace ClassReport

/-- Why compressed data cannot be unpacked. -/
inductive InflateError where
  /-- The data break a rule of the format. -/
  | corrupt
  /-- The data end too early. -/
  | incomplete
  deriving DecidableEq, Repr

/-- Bits that are still to be read: those left of the current byte, and the bytes behind it. -/
structure BitStream where
  pending : List Bool
  rest : Bytes

/-- Takes a value off the front of the bits. -/
abbrev BitReader (α : Type) := StateT BitStream (Except InflateError) α

namespace BitStream
open FailingState

def ofBytes (bs : Bytes) : BitStream := ⟨[], bs⟩

def size (s : BitStream) : Nat := s.pending.length + 8 * s.rest.length

/-- A bit of a byte; 0 is the lowest. -/
def bitOf (b : UInt8) (place : Nat) : Bool := b.toNat.testBit place

def bit : BitReader Bool
  | ⟨b :: pending, rest⟩ => .ok (b, ⟨pending, rest⟩)
  | ⟨[], byte :: rest⟩ =>
    .ok (bitOf byte 0, ⟨[bitOf byte 1, bitOf byte 2, bitOf byte 3, bitOf byte 4, bitOf byte 5,
      bitOf byte 6, bitOf byte 7], rest⟩)
  | ⟨[], []⟩ => .error .incomplete

/-- A number of so many bits, the lowest first. -/
def number : Nat → BitReader Nat
  | 0 => pure 0
  | width + 1 => do
    let low ← bit
    let high ← number width
    pure (low.toNat + 2 * high)

/-- Drops what is left of the current byte. -/
def align : BitReader Unit := fun s => .ok ((), ⟨[], s.rest⟩)

/-- So many whole bytes; what is left of the current byte is dropped. -/
def bytes (count : Nat) : BitReader Bytes := fun s =>
  match Bytes.split? count s.rest with
  | some (piece, rest) => .ok (piece, ⟨[], rest⟩)
  | none => .error .incomplete

/-! ### What a reader leaves -/

/-- The reader leaves no more bits than it was given. -/
def NoGrowth {α : Type} (reader : BitReader α) : Prop :=
  ∀ s value left, reader s = .ok (value, left) → left.size ≤ s.size

/-- The reader leaves fewer bits than it was given. -/
def Strict {α : Type} (reader : BitReader α) : Prop :=
  ∀ s value left, reader s = .ok (value, left) → left.size < s.size

theorem Strict.noGrowth {α : Type} {reader : BitReader α} (h : Strict reader) : NoGrowth reader :=
  fun s value left hr => Nat.le_of_lt (h s value left hr)

theorem noGrowth_pure {α : Type} (value : α) : NoGrowth (pure value : BitReader α) := by
  intro s got left h
  cases h
  exact Nat.le_refl _

theorem strict_throw {α : Type} (e : InflateError) : Strict (throw e : BitReader α) := by
  intro s got left h
  cases h

theorem NoGrowth.bind {α β : Type} {reader : BitReader α} {next : α → BitReader β}
    (hr : NoGrowth reader) (hn : ∀ value, NoGrowth (next value)) : NoGrowth (reader >>= next) := by
  intro s got left h
  obtain ⟨value, middle, h1, h2⟩ := bind_eq_ok_iff.mp h
  exact Nat.le_trans (hn value _ _ _ h2) (hr _ _ _ h1)

theorem Strict.bind {α β : Type} {reader : BitReader α} {next : α → BitReader β}
    (hr : Strict reader) (hn : ∀ value, NoGrowth (next value)) : Strict (reader >>= next) := by
  intro s got left h
  obtain ⟨value, middle, h1, h2⟩ := bind_eq_ok_iff.mp h
  exact Nat.lt_of_le_of_lt (hn value _ _ _ h2) (hr _ _ _ h1)

theorem strict_bit : Strict bit := by
  intro s got left h
  unfold bit at h
  split at h <;> cases h <;> simp only [size, List.length_cons, List.length_nil] <;> omega

theorem noGrowth_number (width : Nat) : NoGrowth (number width) := by
  induction width with
  | zero => exact noGrowth_pure 0
  | succ width ih =>
    exact strict_bit.noGrowth.bind fun _ => ih.bind fun _ => noGrowth_pure _

theorem noGrowth_align : NoGrowth align := by
  intro s got left h
  cases h
  simp [size]

theorem noGrowth_bytes (count : Nat) : NoGrowth (bytes count) := by
  intro s got left h
  unfold bytes at h
  split at h
  · rename_i piece rest hs
    cases h
    have hrest := (Bytes.split?_eq_some_iff.mp hs).2
    simp only [size, hrest, List.length_nil, List.length_append]
    omega
  · cases h

end BitStream

end ClassReport
