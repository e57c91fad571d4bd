import ClassReport.ClassFile.ConstantPool

/-!
# Annotations

An annotation is the descriptor of its type and a list of named values. Only the descriptors of the
outermost annotations are kept; the values, which nest through annotations and arrays to any
depth, are stepped over. What is still to be stepped over stands on a list, so that a value that
holds others only puts more work there; every value takes at least one byte, and that ends it.
-/

namespace ClassReport.Annotations

/-- What is still to be read of the values of an annotation. -/
inductive Pending where
  /-- So many values. -/
  | values (count : Nat)
  /-- So many names, each followed by a value. -/
  | pairs (count : Nat)
  deriving DecidableEq, Repr

/-- What stands behind the tag of a value. -/
inductive ValueLayout where
  | constant
  /-- The indices of an enumeration type and of one of its names. -/
  | enumeration
  | nested
  /-- A number of values, then these values. -/
  | array
  deriving DecidableEq, Repr

/-- The layout that a tag announces, if the tag is known. -/
def ValueLayout.ofTag? (tag : UInt8) : Option ValueLayout :=
  match Char.ofNat tag.toNat with
  | 'B' | 'C' | 'D' | 'F' | 'I' | 'J' | 'S' | 'Z' | 's' | 'c' => some .constant
  | 'e' => some .enumeration
  | '@' => some .nested
  | '[' => some .array
  | _ => none

/-- The type of an annotation and the number of its named values. -/
def readHead (pool : ConstantPool) : Reader (String × UInt16) := do
  let type ← pool.readUtf8
  let pairs ← Reader.u2
  pure (type, pairs)

/-- A value up to where other values begin, and what those are: none behind a constant. -/
def readValueHead (pool : ConstantPool) (tag : UInt8) : Reader Pending :=
  match ValueLayout.ofTag? tag with
  | none => throw (.invalidElementTag tag)
  | some .constant => do
    let _ ← Reader.u2
    pure (.values 0)
  | some .enumeration => do
    let _ ← Reader.u2
    let _ ← Reader.u2
    pure (.values 0)
  | some .nested => do
    let (_, pairs) ← readHead pool
    pure (.pairs pairs.toNat)
  | some .array => do
    let count ← Reader.u2
    pure (.values count.toNat)

theorem forward_readHead (pool : ConstantPool) : Reader.Forward (readHead pool) :=
  pool.forward_readUtf8.bind fun _ => Reader.forward_u2.bind fun _ => Reader.forward_pure _

theorem forward_readValueHead (pool : ConstantPool) (tag : UInt8) :
    Reader.Forward (readValueHead pool tag) := by
  unfold readValueHead
  split
  · exact Reader.forward_throw _
  · exact Reader.forward_u2.bind fun _ => Reader.forward_pure _
  · exact Reader.forward_u2.bind fun _ => Reader.forward_u2.bind fun _ => Reader.forward_pure _
  · exact (forward_readHead pool).bind fun _ => Reader.forward_pure _
  · exact Reader.forward_u2.bind fun _ => Reader.forward_pure _

/-- Steps over all that is pending. -/
def skip (pool : ConstantPool) : List Pending → Reader Unit
  | [], bs => .ok ((), bs)
  | .values 0 :: todo, bs => skip pool todo bs
  | .pairs 0 :: todo, bs => skip pool todo bs
  | .pairs (count + 1) :: todo, _ :: _ :: rest =>
    skip pool (.values 1 :: .pairs count :: todo) rest
  | .pairs (_ + 1) :: _, _ => .error .unexpectedEnd
  | .values (count + 1) :: todo, tag :: rest =>
    match h : readValueHead pool tag rest with
    | .error e => .error e
    | .ok (inner, left) =>
      have := (forward_readValueHead pool tag).length_le h
      skip pool (inner :: .values count :: todo) left
  | .values (_ + 1) :: _, [] => .error .unexpectedEnd
termination_by todo bs => 2 * bs.length + todo.length

/-- An annotation: its type is kept and its values are stepped over. -/
def read (pool : ConstantPool) : Reader String := do
  let (type, pairs) ← readHead pool
  skip pool [.pairs pairs.toNat]
  pure type

def readList (pool : ConstantPool) : Reader (List String) := do
  let count ← Reader.u2
  Reader.readMany count.toNat (read pool)

end ClassReport.Annotations
