/-!
# Byte strings

Files are lists of bytes. `Bytes.split?` takes a counted piece off the front and is the only place
where a declared length meets the bytes that are there: it succeeds exactly when enough bytes
remain (`split?_eq_some_iff`), and looks at no byte behind the piece.
-/

namespace ClassReport

/-- The content of a file, or a part of it. -/
abbrev Bytes := List UInt8

def utf8Bytes (text : String) : Bytes := text.toByteArray.data.toList

theorem utf8Bytes_append (text other : String) :
    utf8Bytes (text ++ other) = utf8Bytes text ++ utf8Bytes other := by
  rw [utf8Bytes, String.toByteArray_append, ByteArray.data_append, Array.toList_append]
  rfl

namespace Bytes

/-- Moves `n` bytes from the second list to the first, which is kept in reverse. -/
def splitOnto : Nat → Bytes → Bytes → Option (Bytes × Bytes)
  | 0, taken, rest => some (taken.reverse, rest)
  | _ + 1, _, [] => none
  | n + 1, taken, b :: rest => splitOnto n (b :: taken) rest

/-- The first `n` bytes and what follows them, when that many are there. -/
def split? (n : Nat) (bs : Bytes) : Option (Bytes × Bytes) := splitOnto n [] bs

theorem splitOnto_eq_some_iff (n : Nat) (taken bs piece rest : Bytes) :
    splitOnto n taken bs = some (piece, rest) ↔
      ∃ front, front.length = n ∧ bs = front ++ rest ∧ piece = taken.reverse ++ front := by
  induction n generalizing taken bs with
  | zero =>
    simp only [splitOnto, Option.some.injEq, Prod.mk.injEq]
    constructor
    · rintro ⟨hp, hr⟩
      exact ⟨[], rfl, by simp [hr], by simp [hp]⟩
    · rintro ⟨front, hf, hb, hp⟩
      have hnil : front = [] := List.eq_nil_of_length_eq_zero hf
      subst hnil
      simp_all
  | succ n ih =>
    cases bs with
    | nil =>
      simp only [splitOnto, reduceCtorEq, false_iff, not_exists, not_and]
      intro front hf hb
      have hnil := (List.append_eq_nil_iff.mp hb.symm).1
      simp [hnil] at hf
    | cons b bs =>
      simp only [splitOnto, ih]
      constructor
      · rintro ⟨front, hf, hb, hp⟩
        exact ⟨b :: front, by simp [hf], by simp [hb], by simp [hp]⟩
      · rintro ⟨front, hf, hb, hp⟩
        cases front with
        | nil => simp at hf
        | cons c front =>
          simp only [List.cons_append, List.cons.injEq] at hb
          obtain ⟨rfl, hb⟩ := hb
          exact ⟨front, by simpa using hf, hb, by simp [hp]⟩

/-- Splitting succeeds exactly when the bytes are a piece of the wanted length and a rest. -/
theorem split?_eq_some_iff {n : Nat} {bs piece rest : Bytes} :
    split? n bs = some (piece, rest) ↔ piece.length = n ∧ bs = piece ++ rest := by
  simp only [split?, splitOnto_eq_some_iff, List.reverse_nil, List.nil_append]
  constructor
  · rintro ⟨front, hf, hb, rfl⟩
    exact ⟨hf, hb⟩
  · rintro ⟨hf, hb⟩
    exact ⟨piece, hf, hb, rfl⟩

end Bytes

end ClassReport
