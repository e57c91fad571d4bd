import ClassReport.Archive.BitStream

/-!
# Code trees

The codes of variable length that compressed data are written in. A set of codes is given by the
length of each symbol's code: codes of one length are consecutive in symbol order, and longer ones
follow shorter ones. The tree of a set is walked bit by bit, so a piece of data that no code begins
with is told from data that end within a code.
-/

namespace ClassReport

/-- Symbols at the leaves, a bit at each branch. -/
inductive CodeTree where
  /-- No code begins in this way. -/
  | empty
  | leaf (symbol : Nat)
  | branch (zero one : CodeTree)

namespace CodeTree

/-- The tree with one more code, given from its first bit on. -/
def insert (symbol : Nat) : List Bool → CodeTree → CodeTree
  | [], _ => .leaf symbol
  | b :: path, tree =>
    let (zero, one) := match tree with
      | .branch zero one => (zero, one)
      | _ => (.empty, .empty)
    if b then .branch zero (insert symbol path one) else .branch (insert symbol path zero) one

/-- Walks down from an inner place of the tree to a symbol. -/
def descend : CodeTree → BitReader Nat
  | .empty => throw .corrupt
  | .leaf symbol => pure symbol
  | .branch zero one => do
    let b ← BitStream.bit
    if b then descend one else descend zero

/-- A symbol; its code has at least one bit. -/
def read (tree : CodeTree) : BitReader Nat := do
  let b ← BitStream.bit
  match tree with
  | .branch zero one => if b then descend one else descend zero
  | _ => throw .corrupt

theorem noGrowth_descend (tree : CodeTree) : BitStream.NoGrowth tree.descend := by
  induction tree with
  | empty => exact (BitStream.strict_throw _).noGrowth
  | leaf symbol => exact BitStream.noGrowth_pure _
  | branch zero one hz ho =>
    refine BitStream.strict_bit.noGrowth.bind fun b => ?_
    cases b
    · exact hz
    · exact ho

theorem strict_read (tree : CodeTree) : BitStream.Strict tree.read := by
  refine BitStream.strict_bit.bind fun b => ?_
  cases tree with
  | empty => exact (BitStream.strict_throw _).noGrowth
  | leaf symbol => exact (BitStream.strict_throw _).noGrowth
  | branch zero one =>
    cases b
    · exact noGrowth_descend zero
    · exact noGrowth_descend one

/-! ### Trees from code lengths -/

def maxLength : Nat := 15

/-- The symbols that have a code, each with its length: shorter codes first, then by symbol. -/
def inCodeOrder (lengths : List Nat) : List (Nat × Nat) :=
  (List.range maxLength).flatMap fun shorter =>
    (lengths.zipIdx.filter fun item => item.1 == shorter + 1)

/-- The bits of a code of that length, the highest first. -/
def bitsOf (code : Nat) : Nat → List Bool
  | 0 => []
  | length + 1 => code.testBit length :: bitsOf code length

/-- Gives the next code to each symbol in turn; `code` is free at `length`. -/
def assign (tree : CodeTree) (code length : Nat) : List (Nat × Nat) → CodeTree
  | [] => tree
  | (longer, symbol) :: rest =>
    let next := code <<< (longer - length)
    assign (tree.insert symbol (bitsOf next longer)) (next + 1) longer rest

/-- The share of all codes that the lengths use up, in units of a code of the greatest length. -/
def used (lengths : List Nat) : Nat :=
  (inCodeOrder lengths).foldl (fun total item => total + 1 <<< (maxLength - item.1)) 0

/-- Whether the lengths leave no code unused and use none twice. -/
def isComplete (lengths : List Nat) : Bool := used lengths == 1 <<< maxLength

def ofLengths (lengths : List Nat) : CodeTree := assign .empty 0 0 (inCodeOrder lengths)

/-- Whether the lengths are those of a set of codes: of a complete one, of a single code of one bit, or
of no code at all. -/
def areValid (lengths : List Nat) : Bool :=
  match inCodeOrder lengths with
  | [] | [(1, _)] => true
  | _ => isComplete lengths

/-- The tree of a set of codes, if the lengths are those of one. -/
def ofLengths? (lengths : List Nat) : Option CodeTree :=
  if areValid lengths then some (ofLengths lengths) else none

end CodeTree

end ClassReport
