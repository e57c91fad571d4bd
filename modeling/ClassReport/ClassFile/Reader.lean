import ClassReport.Bytes
import ClassReport.ClassFile.Basic
import ClassReport.FailingState

/-!
# Reading the items of a class file

A reader takes an item off the front of the bytes and leaves the rest, or says why it cannot.
Counts and lengths are big-endian numbers of one, two or four bytes. `readMany` runs a reader a
counted number of times; `within` runs one inside a piece of declared length.
-/

namespace ClassReport

/-- Takes a value off the front of the bytes. -/
abbrev Reader (α : Type) := StateT Bytes (Except ClassFileError) α

namespace Reader

def u1 : Reader UInt8
  | [] => .error .unexpectedEnd
  | a :: rest => .ok (a, rest)

/-- A number of two bytes, the high one first. -/
def u2 : Reader UInt16
  | a :: b :: rest => .ok (UInt16.ofNat (a.toNat * 256 + b.toNat), rest)
  | _ => .error .unexpectedEnd

/-- A number of four bytes, the high one first. -/
def u4 : Reader UInt32
  | a :: b :: c :: d :: rest =>
    .ok (UInt32.ofNat (((a.toNat * 256 + b.toNat) * 256 + c.toNat) * 256 + d.toNat), rest)
  | _ => .error .unexpectedEnd

def slice (length : Nat) : Reader Bytes := fun bs =>
  match Bytes.split? length bs with
  | some (piece, rest) => .ok (piece, rest)
  | none => .error .unexpectedEnd

/-- Runs `step` `count` times, each time on what the last run gave. -/
def iterate {α : Type} (step : α → Reader α) : Nat → α → Reader α
  | 0, value => pure value
  | count + 1, value => do
    let next ← step value
    iterate step count next

def readMany {α : Type} (count : Nat) (item : Reader α) : Reader (List α) := do
  let reversed ← iterate (fun items => do
    let next ← item
    pure (next :: items)) count []
  pure reversed.reverse

/-- Reads inside the next `length` bytes, and drops what is left of them. -/
def within {α : Type} (length : Nat) (body : Reader α) : Reader α := do
  let piece ← slice length
  let (value, _) ← body piece
  pure value

/-! ### What a reader leaves -/

/-- What the reader leaves is an end of what it was given. -/
def Forward {α : Type} (reader : Reader α) : Prop :=
  ∀ bs value rest, reader bs = .ok (value, rest) → ∃ used, bs = used ++ rest

theorem Forward.length_le {α : Type} {reader : Reader α} (h : Forward reader) {bs rest : Bytes}
    {value : α} (hr : reader bs = .ok (value, rest)) : rest.length ≤ bs.length := by
  obtain ⟨used, rfl⟩ := h _ _ _ hr
  simp

theorem forward_pure {α : Type} (value : α) : Forward (pure value : Reader α) := by
  intro bs got rest h
  cases h
  exact ⟨[], rfl⟩

theorem forward_throw {α : Type} (e : ClassFileError) : Forward (throw e : Reader α) := by
  intro bs got rest h
  cases h

theorem forward_lift {α : Type} (outcome : Except ClassFileError α) :
    Forward (liftM outcome : Reader α) := by
  intro bs got rest h
  cases outcome with
  | error e => cases h
  | ok value =>
    cases h
    exact ⟨[], rfl⟩

theorem Forward.bind {α β : Type} {reader : Reader α} {next : α → Reader β}
    (hr : Forward reader) (hn : ∀ value, Forward (next value)) : Forward (reader >>= next) := by
  intro bs got rest h
  obtain ⟨value, middle, hfirst, hsecond⟩ := FailingState.bind_eq_ok_iff.mp h
  obtain ⟨used, rfl⟩ := hr _ _ _ hfirst
  obtain ⟨more, rfl⟩ := hn value _ _ _ hsecond
  exact ⟨used ++ more, (List.append_assoc ..).symm⟩

theorem forward_u2 : Forward u2 := by
  intro bs got rest h
  unfold u2 at h
  split at h <;> cases h
  exact ⟨[_, _], rfl⟩

end Reader

end ClassReport
