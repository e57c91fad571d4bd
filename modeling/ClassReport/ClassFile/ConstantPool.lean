import ClassReport.ClassFile.Reader
import ClassReport.Text.ModifiedUtf8

/-!
# Constant pools

The pool is a table of slots numbered from 1; slot 0 and the second slot of a `long` or a `double`
hold nothing. Only texts and class references are kept, as nothing else is ever looked up.
-/

namespace ClassReport

/-- What a slot of the pool holds. -/
inductive Constant where
  | utf8 (text : String)
  /-- A class, named by the text in another slot. -/
  | classRef (name : UInt16)
  | other
  /-- Slot 0, or the second slot of a two-slot constant. -/
  | unusable
  deriving DecidableEq, Repr, Inhabited

/-- The layout of a constant behind its tag. -/
inductive ConstantLayout where
  /-- A length of two bytes and so many bytes of text. -/
  | text
  | className
  /-- So many bytes that are skipped. -/
  | fixed (length : Nat)
  /-- Eight bytes that are skipped, for two slots. -/
  | twoSlots
  deriving DecidableEq, Repr

/-- The layout that a tag announces, if the tag is known. -/
def ConstantLayout.ofTag? (tag : UInt8) : Option ConstantLayout :=
  match tag.toNat with
  | 1 => some .text
  | 7 => some .className
  | 5 | 6 => some .twoSlots
  | 15 => some (.fixed 3)
  | 8 | 16 | 19 | 20 => some (.fixed 2)
  | 3 | 4 | 9 | 10 | 11 | 12 | 17 | 18 => some (.fixed 4)
  | _ => none

/-- The slots that a constant at `index` fills, in a pool of `count` slots. A two-slot constant
must find its second slot inside the pool, and that is looked at before its bytes. -/
def Constant.readSlots (count index : Nat) : Reader (Constant × Option Constant) := do
  let tag ← Reader.u1
  match ConstantLayout.ofTag? tag with
  | none => throw (.unsupportedConstant tag)
  | some .text =>
    let length ← Reader.u2
    let bytes ← Reader.slice length.toNat
    pure (.utf8 (ModifiedUtf8.decode bytes), none)
  | some .className =>
    let name ← Reader.u2
    pure (.classRef name, none)
  | some (.fixed length) =>
    let _ ← Reader.slice length
    pure (.other, none)
  | some .twoSlots =>
    if index + 1 < count then
      let _ ← Reader.slice 8
      pure (.other, some .unusable)
    else throw (.invalidConstantIndex (UInt16.ofNat index))

structure ConstantPool where
  slots : Array Constant
  deriving Repr, Inhabited

namespace ConstantPool

/-- Fills the table up to `count` slots. -/
def fill (count : Nat) (slots : Array Constant) : Reader (Array Constant) :=
  if slots.size < count then do
    match ← Constant.readSlots count slots.size with
    | (first, none) => fill count (slots.push first)
    | (first, some second) => fill count ((slots.push first).push second)
  else pure slots
termination_by count - slots.size
decreasing_by all_goals simp only [Array.size_push]; omega

/-- A pool: the number of its slots, slot 0 counted, and the constants from slot 1 on. -/
def read : Reader ConstantPool := do
  let count ← Reader.u2
  let slots ← fill count.toNat #[.unusable]
  pure ⟨slots⟩

def utf8 (pool : ConstantPool) (index : UInt16) : Except ClassFileError String :=
  match pool.slots[index.toNat]? with
  | some (.utf8 text) => .ok text
  | _ => .error (.invalidConstantIndex index)

def className (pool : ConstantPool) (index : UInt16) : Except ClassFileError String :=
  match pool.slots[index.toNat]? with
  | some (.classRef name) => pool.utf8 name
  | _ => .error (.invalidConstantIndex index)

/-- Reads an index and gives the text in that slot. -/
def readUtf8 (pool : ConstantPool) : Reader String := do
  let index ← Reader.u2
  pool.utf8 index

/-- Reads an index and gives the name of the class in that slot. -/
def readClassName (pool : ConstantPool) : Reader String := do
  let index ← Reader.u2
  pool.className index

theorem utf8_eq_error {pool : ConstantPool} {index : UInt16} (h : ∀ text, pool.utf8 index ≠ .ok text) :
    pool.utf8 index = .error (.invalidConstantIndex index) := by
  unfold utf8 at h ⊢
  split
  · rename_i text hslot
    rw [hslot] at h
    exact absurd rfl (h text)
  · rfl

theorem forward_readUtf8 (pool : ConstantPool) : Reader.Forward pool.readUtf8 :=
  Reader.forward_u2.bind fun _ => Reader.forward_lift _

end ConstantPool

end ClassReport
