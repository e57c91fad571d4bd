import ClassReport.Archive.CodeTree

/-!
# Unpacking compressed data

Compressed data are a row of blocks: plain bytes, or codes for single bytes and for copies of what
was unpacked before. The last block says that it is the last, and nothing behind it is looked at.
What a copy asks for from before the first byte is zero.
-/

namespace ClassReport.Inflate

open BitStream (NoGrowth Strict)

/-- The two sets of codes of a block. -/
structure Codes where
  /-- Bytes, the end of the block, and lengths of copies. -/
  items : CodeTree
  distances : CodeTree

/-- What a code of a block stands for. -/
inductive Item where
  | byte (value : UInt8)
  | copy (length distance : Nat)
  | endOfBlock

/-- The least length of a copy and the number of extra bits, for the symbols from 257 on. -/
def lengthTable : List (Nat × Nat) :=
  [(3, 0), (4, 0), (5, 0), (6, 0), (7, 0), (8, 0), (9, 0), (10, 0), (11, 1), (13, 1), (15, 1),
    (17, 1), (19, 2), (23, 2), (27, 2), (31, 2), (35, 3), (43, 3), (51, 3), (59, 3), (67, 4),
    (83, 4), (99, 4), (115, 4), (131, 5), (163, 5), (195, 5), (227, 5), (258, 0)]

/-- The least distance and the number of extra bits, for each distance symbol. -/
def distanceTable : List (Nat × Nat) :=
  [(1, 0), (2, 0), (3, 0), (4, 0), (5, 1), (7, 1), (9, 2), (13, 2), (17, 3), (25, 3), (33, 4),
    (49, 4), (65, 5), (97, 5), (129, 6), (193, 6), (257, 7), (385, 7), (513, 8), (769, 8),
    (1025, 9), (1537, 9), (2049, 10), (3073, 10), (4097, 11), (6145, 11), (8193, 12), (12289, 12),
    (16385, 13), (24577, 13)]

/-- A number given as an entry of a table and extra bits. -/
def readExtended (table : List (Nat × Nat)) (symbol : Nat) : BitReader Nat :=
  match table[symbol]? with
  | none => throw .corrupt
  | some (least, width) => do
    let extra ← BitStream.number width
    pure (least + extra)

/-- The item that a symbol announces. -/
def readItemOf (codes : Codes) (symbol : Nat) : BitReader Item :=
  if symbol < 256 then pure (.byte (UInt8.ofNat symbol))
  else if symbol = 256 then pure .endOfBlock
  else do
    let length ← readExtended lengthTable (symbol - 257)
    let far ← codes.distances.read
    let distance ← readExtended distanceTable far
    pure (.copy length distance)

def readItem (codes : Codes) : BitReader Item := do
  let symbol ← codes.items.read
  readItemOf codes symbol

theorem noGrowth_readExtended (table : List (Nat × Nat)) (symbol : Nat) :
    NoGrowth (readExtended table symbol) := by
  unfold readExtended
  split
  · exact (BitStream.strict_throw _).noGrowth
  · exact (BitStream.noGrowth_number _).bind fun _ => BitStream.noGrowth_pure _

theorem noGrowth_readItemOf (codes : Codes) (symbol : Nat) : NoGrowth (readItemOf codes symbol) := by
  unfold readItemOf
  split
  · exact BitStream.noGrowth_pure _
  · split
    · exact BitStream.noGrowth_pure _
    · exact (noGrowth_readExtended _ _).bind fun _ =>
        codes.distances.strict_read.noGrowth.bind fun _ =>
          (noGrowth_readExtended _ _).bind fun _ => BitStream.noGrowth_pure _

theorem strict_readItem (codes : Codes) : Strict (readItem codes) :=
  codes.items.strict_read.bind fun symbol => noGrowth_readItemOf codes symbol

/-- Adds `length` bytes, each the one that stands `distance` before the end. -/
def copyBack (distance : Nat) : Nat → Array UInt8 → Array UInt8
  | 0, out => out
  | length + 1, out =>
    let b := if distance ≤ out.size then out[out.size - distance]?.getD 0 else 0
    copyBack distance length (out.push b)

/-- Unpacks the items of a block behind `out`. -/
def expand (codes : Codes) (out : Array UInt8) (s : BitStream) :
    Except InflateError (Array UInt8 × BitStream) :=
  match h : readItem codes s with
  | .error e => .error e
  | .ok (item, left) =>
    have := strict_readItem codes s item left h
    match item with
    | .byte b => expand codes (out.push b) left
    | .copy length distance => expand codes (copyBack distance length out) left
    | .endOfBlock => .ok (out, left)
termination_by s.size

theorem noGrowth_expand (codes : Codes) (out : Array UInt8) : NoGrowth (expand codes out) := by
  intro s got left h
  fun_induction expand codes out s with
  | case1 out s e hr => cases h
  | case2 out s next b hr hr' hlt ih => exact Nat.le_trans (ih h) (Nat.le_of_lt hlt)
  | case3 out s next length distance hr hr' hlt ih =>
    exact Nat.le_trans (ih h) (Nat.le_of_lt hlt)
  | case4 out s next hr hr' hlt =>
    cases h
    exact Nat.le_of_lt hlt

/-! ### Blocks -/

/-- The codes of a block that brings none. -/
def fixedCodes : Codes where
  items := CodeTree.ofLengths
    (List.replicate 144 8 ++ List.replicate 112 9 ++ List.replicate 24 7 ++ List.replicate 8 8)
  distances := CodeTree.ofLengths (List.replicate 32 5)

/-- The order in which the lengths of the codes for code lengths are written. -/
def lengthOrder : List Nat := [16, 17, 18, 0, 8, 7, 9, 6, 10, 5, 11, 4, 12, 3, 13, 2, 14, 1, 15]

/-- Numbers of three bits for the code lengths in that order. -/
def readLengthLengths : Nat → BitReader (List Nat)
  | 0 => pure []
  | count + 1 => do
    let first ← BitStream.number 3
    let others ← readLengthLengths count
    pure (first :: others)

/-- What a symbol among the code lengths stands for: a length, or a run of the last one or of zeros. -/
def readRun (symbol : Nat) (last : Option Nat) : BitReader (List Nat) :=
  if symbol < 16 then pure [symbol]
  else if symbol = 16 then
    match last with
    | none => throw .corrupt
    | some length => do
      let extra ← BitStream.number 2
      pure (List.replicate (3 + extra) length)
  else if symbol = 17 then do
    let extra ← BitStream.number 3
    pure (List.replicate (3 + extra) 0)
  else do
    let extra ← BitStream.number 7
    pure (List.replicate (11 + extra) 0)

/-- The code lengths of a block, `reversed` and more, until there are `count`; the last run must end
just there. At most `steps` symbols are read. -/
def readLengths (tree : CodeTree) (count : Nat) : Nat → List Nat → BitReader (List Nat)
  | 0, reversed => pure reversed.reverse
  | steps + 1, reversed =>
    if reversed.length < count then do
      let symbol ← tree.read
      let run ← readRun symbol reversed.head?
      readLengths tree count steps (run ++ reversed)
    else if reversed.length = count then pure reversed.reverse
    else throw .corrupt

/-- The tree of some lengths, where they make one. -/
def treeOf (lengths : List Nat) : BitReader CodeTree :=
  match CodeTree.ofLengths? lengths with
  | some tree => pure tree
  | none => throw .corrupt

/-- The codes of a block that brings its own. -/
def readCodes : BitReader Codes := do
  let items ← BitStream.number 5
  let distances ← BitStream.number 5
  let lengths ← BitStream.number 4
  let itemCount := items + 257
  let distanceCount := distances + 1
  if itemCount > 286 || distanceCount > 30 then throw .corrupt
  let written ← readLengthLengths (lengths + 4)
  let lengthsOf := (List.range 19).map fun symbol =>
    ((lengthOrder.zip written).lookup symbol).getD 0
  if !CodeTree.isComplete lengthsOf then throw .corrupt
  let all ← readLengths (CodeTree.ofLengths lengthsOf) (itemCount + distanceCount)
    (itemCount + distanceCount + 1) []
  let distanceTree ← treeOf (all.drop itemCount)
  let itemTree ← treeOf (all.take itemCount)
  pure ⟨itemTree, distanceTree⟩

/-- A block of plain bytes: their number, the number's complement, and the bytes. -/
def readPlain (out : Array UInt8) : BitReader (Array UInt8) := do
  BitStream.align
  let length ← BitStream.number 16
  let complement ← BitStream.number 16
  if length + complement ≠ 0xFFFF then throw .corrupt
  let piece ← BitStream.bytes length
  pure (out ++ piece.toArray)

/-- The content of a block of that kind, behind `out`. -/
def readContent (out : Array UInt8) (kind : Nat) : BitReader (Array UInt8) :=
  match kind with
  | 0 => readPlain out
  | 1 => expand fixedCodes out
  | 2 => do
    let codes ← readCodes
    expand codes out
  | _ => throw .corrupt

/-- A block behind `out`, and whether it is the last. -/
def readBlock (out : Array UInt8) : BitReader (Array UInt8 × Bool) := do
  let isLast ← BitStream.bit
  let kind ← BitStream.number 2
  let grown ← readContent out kind
  pure (grown, isLast)

theorem noGrowth_readLengthLengths (count : Nat) : NoGrowth (readLengthLengths count) := by
  induction count with
  | zero => exact BitStream.noGrowth_pure _
  | succ count ih =>
    exact (BitStream.noGrowth_number 3).bind fun _ => ih.bind fun _ => BitStream.noGrowth_pure _

theorem noGrowth_readRun (symbol : Nat) (last : Option Nat) : NoGrowth (readRun symbol last) := by
  unfold readRun
  split
  · exact BitStream.noGrowth_pure _
  · split
    · split
      · exact (BitStream.strict_throw _).noGrowth
      · exact (BitStream.noGrowth_number _).bind fun _ => BitStream.noGrowth_pure _
    · split <;> exact (BitStream.noGrowth_number _).bind fun _ => BitStream.noGrowth_pure _

theorem noGrowth_readLengths (tree : CodeTree) (count steps : Nat) (reversed : List Nat) :
    NoGrowth (readLengths tree count steps reversed) := by
  induction steps generalizing reversed with
  | zero => exact BitStream.noGrowth_pure _
  | succ steps ih =>
    unfold readLengths
    split
    · exact tree.strict_read.noGrowth.bind fun _ => (noGrowth_readRun _ _).bind fun _ => ih _
    · split
      · exact BitStream.noGrowth_pure _
      · exact (BitStream.strict_throw _).noGrowth

theorem noGrowth_treeOf (lengths : List Nat) : NoGrowth (treeOf lengths) := by
  unfold treeOf
  split
  · exact BitStream.noGrowth_pure _
  · exact (BitStream.strict_throw _).noGrowth

/-- A check before a reader keeps what is known of the reader. -/
theorem noGrowth_unless {α : Type} {p : Prop} [Decidable p] {e : InflateError} {next : BitReader α}
    (h : NoGrowth next) :
    NoGrowth (do
      if p then throw e
      next) := by
  by_cases hp : p
  · simp only [hp, if_true]
    intro s got left hr
    cases hr
  · simpa only [hp, if_false] using h

theorem noGrowth_readCodes : NoGrowth readCodes :=
  (BitStream.noGrowth_number _).bind fun _ => (BitStream.noGrowth_number _).bind fun _ =>
    (BitStream.noGrowth_number _).bind fun _ => noGrowth_unless
      ((noGrowth_readLengthLengths _).bind fun _ => noGrowth_unless
        ((noGrowth_readLengths _ _ _ _).bind fun _ => (noGrowth_treeOf _).bind fun _ =>
          (noGrowth_treeOf _).bind fun _ => BitStream.noGrowth_pure _))

theorem noGrowth_readPlain (out : Array UInt8) : NoGrowth (readPlain out) :=
  BitStream.noGrowth_align.bind fun _ => (BitStream.noGrowth_number _).bind fun _ =>
    (BitStream.noGrowth_number _).bind fun _ => noGrowth_unless
      ((BitStream.noGrowth_bytes _).bind fun _ => BitStream.noGrowth_pure _)

theorem noGrowth_readContent (out : Array UInt8) (kind : Nat) : NoGrowth (readContent out kind) := by
  unfold readContent
  split
  · exact noGrowth_readPlain out
  · exact noGrowth_expand fixedCodes out
  · exact noGrowth_readCodes.bind fun codes => noGrowth_expand codes out
  · exact (BitStream.strict_throw _).noGrowth

theorem strict_readBlock (out : Array UInt8) : Strict (readBlock out) :=
  BitStream.strict_bit.bind fun _ => (BitStream.noGrowth_number _).bind fun _ =>
    (noGrowth_readContent out _).bind fun _ => BitStream.noGrowth_pure _

/-- Unpacks blocks behind `out`, up to the last. -/
def blocks (out : Array UInt8) (s : BitStream) : Except InflateError (Array UInt8) :=
  match h : readBlock out s with
  | .error e => .error e
  | .ok ((grown, isLast), left) =>
    have := strict_readBlock out s (grown, isLast) left h
    if isLast then .ok grown else blocks grown left
termination_by s.size

def unpack (data : Bytes) : Except InflateError Bytes :=
  (blocks #[] (BitStream.ofBytes data)).map Array.toList

end ClassReport.Inflate
