import ClassReport.ClassFile.Reader
import Mathlib.Algebra.Group.Nat.Defs

/-!
# What a reader takes

`Reads reader written value`: the reader takes exactly `written` off the front and gives `value`, whatever
bytes follow. The predicate is closed under sequence, counted repetition and reading inside a
piece, so what a compound reader takes is put together from what its parts take. The numbers of
the format are written by `bigEndian`.
-/

namespace ClassReport.Reader
open FailingState

/-- The reader takes `written` and nothing behind it, and gives `value`. -/
def Reads {α : Type} (reader : Reader α) (written : Bytes) (value : α) : Prop :=
  ∀ rest, reader (written ++ rest) = .ok (value, rest)

theorem reads_pure {α : Type} (value : α) : Reads (pure value : Reader α) [] value := fun _ => rfl

theorem Reads.bind {α β : Type} {reader : Reader α} {next : α → Reader β} {first second : Bytes}
    {value : α} {result : β} (hr : Reads reader first value)
    (hn : Reads (next value) second result) : Reads (reader >>= next) (first ++ second) result := by
  intro rest
  rw [bind_apply, List.append_assoc, hr (second ++ rest)]
  exact hn rest

/-- A last step that takes nothing. -/
theorem Reads.map {α β : Type} {reader : Reader α} {written : Bytes} {value : α} (f : α → β)
    (hr : Reads reader written value) :
    Reads (reader >>= fun got => pure (f got)) written (f value) := by
  have h : Reads (reader >>= fun got => pure (f got)) (written ++ []) (f value) :=
    hr.bind (reads_pure (f value))
  rwa [List.append_nil] at h

/-- A last step that takes nothing and looks up what was read. -/
theorem Reads.resolve {α β : Type} {reader : Reader α} {written : Bytes} {index : α}
    (lookup : α → Except ClassFileError β) {value : β} (hr : Reads reader written index)
    (h : lookup index = .ok value) :
    Reads (reader >>= fun got => liftM (lookup got)) written value := by
  intro rest
  rw [bind_apply, hr rest]
  show (liftM (lookup index) : Reader β) rest = .ok (value, rest)
  rw [h]
  rfl

/-! ### Numbers -/

/-- A number in so many bytes, the high one first. -/
def bigEndian : Nat → Nat → Bytes
  | 0, _ => []
  | width + 1, n => bigEndian width (n / 256) ++ [UInt8.ofNat n]

theorem length_bigEndian (width n : Nat) : (bigEndian width n).length = width := by
  induction width generalizing n with
  | zero => rfl
  | succ width ih => rw [bigEndian, List.length_append, ih, List.length_singleton]

theorem bigEndian_two (n : Nat) :
    bigEndian 2 n = [UInt8.ofNat (n / 256), UInt8.ofNat n] := rfl

theorem bigEndian_four (n : Nat) :
    bigEndian 4 n =
      [UInt8.ofNat (n / 16777216), UInt8.ofNat (n / 65536), UInt8.ofNat (n / 256), UInt8.ofNat n] := by
  have h : bigEndian 4 n = [UInt8.ofNat (n / 256 / 256 / 256), UInt8.ofNat (n / 256 / 256),
      UInt8.ofNat (n / 256), UInt8.ofNat n] := rfl
  simp only [h, Nat.div_div_eq_div_mul]

theorem reads_u1 (b : UInt8) : Reads u1 [b] b := fun _ => rfl

theorem reads_u2 (n : UInt16) : Reads u2 (bigEndian 2 n.toNat) n := by
  intro rest
  rw [bigEndian_two]
  show Except.ok (UInt16.ofNat ((UInt8.ofNat (n.toNat / 256)).toNat * 256 +
    (UInt8.ofNat n.toNat).toNat), rest) = .ok (n, rest)
  have hn := n.toNat_lt
  have hvalue : (UInt8.ofNat (n.toNat / 256)).toNat * 256 + (UInt8.ofNat n.toNat).toNat = n.toNat := by
    simp only [UInt8.toNat_ofNat']
    omega
  rw [hvalue, UInt16.ofNat_toNat]

theorem reads_u4 (n : UInt32) : Reads u4 (bigEndian 4 n.toNat) n := by
  intro rest
  rw [bigEndian_four]
  show Except.ok (UInt32.ofNat ((((UInt8.ofNat (n.toNat / 16777216)).toNat * 256 +
    (UInt8.ofNat (n.toNat / 65536)).toNat) * 256 + (UInt8.ofNat (n.toNat / 256)).toNat) * 256 +
    (UInt8.ofNat n.toNat).toNat), rest) = .ok (n, rest)
  have hn := n.toNat_lt
  have hvalue : (((UInt8.ofNat (n.toNat / 16777216)).toNat * 256 +
      (UInt8.ofNat (n.toNat / 65536)).toNat) * 256 + (UInt8.ofNat (n.toNat / 256)).toNat) * 256 +
      (UInt8.ofNat n.toNat).toNat = n.toNat := by
    simp only [UInt8.toNat_ofNat']
    omega
  rw [hvalue, UInt32.ofNat_toNat]

/-- A count of one byte, as the number it stands for. -/
theorem reads_count1 {α : Type} (next : Nat → Reader α) {n : Nat} (h : n < 0x100) {written : Bytes}
    {value : α} (hn : Reads (next n) written value) :
    Reads (u1 >>= fun count => next count.toNat) (bigEndian 1 n ++ written) value := by
  have hb : bigEndian 1 n = [UInt8.ofNat n] := by simp [bigEndian]
  have hcount : (UInt8.ofNat n).toNat = n := UInt8.toNat_ofNat_of_lt' h
  rw [hb]
  refine (reads_u1 _).bind ?_
  show Reads (next (UInt8.ofNat n).toNat) written value
  rwa [hcount]

theorem reads_count2 {α : Type} (next : Nat → Reader α) {n : Nat} (h : n < 0x10000) {written : Bytes}
    {value : α} (hn : Reads (next n) written value) :
    Reads (u2 >>= fun count => next count.toNat) (bigEndian 2 n ++ written) value := by
  have hcount : (UInt16.ofNat n).toNat = n := UInt16.toNat_ofNat_of_lt' h
  have hu := reads_u2 (UInt16.ofNat n)
  rw [hcount] at hu
  refine hu.bind ?_
  show Reads (next (UInt16.ofNat n).toNat) written value
  rwa [hcount]

theorem reads_count4 {α : Type} (next : Nat → Reader α) {n : Nat} (h : n < 0x100000000) {written : Bytes}
    {value : α} (hn : Reads (next n) written value) :
    Reads (u4 >>= fun count => next count.toNat) (bigEndian 4 n ++ written) value := by
  have hcount : (UInt32.ofNat n).toNat = n := UInt32.toNat_ofNat_of_lt' h
  have hu := reads_u4 (UInt32.ofNat n)
  rw [hcount] at hu
  refine hu.bind ?_
  show Reads (next (UInt32.ofNat n).toNat) written value
  rwa [hcount]

/-! ### Pieces and repetition -/

theorem reads_slice (piece : Bytes) : Reads (slice piece.length) piece piece := by
  intro rest
  have h : Bytes.split? piece.length (piece ++ rest) = some (piece, rest) :=
    Bytes.split?_eq_some_iff.mpr ⟨rfl, rfl⟩
  simp only [slice, h]

/-- What the body leaves of the piece is dropped. -/
theorem reads_within {α : Type} {body : Reader α} {written extra : Bytes} {value : α}
    (hb : Reads body written value) :
    Reads (within (written ++ extra).length body) (written ++ extra) value := by
  intro rest
  rw [within, bind_apply, reads_slice (written ++ extra) rest]
  show (liftM (body (written ++ extra)) >>= fun got => pure got.1 : Reader α) rest = _
  rw [bind_apply, hb extra]
  rfl

theorem iterate_reads {α β : Type} {item : Reader β} {write : α → Bytes} {value : α → β} {xs : List α}
    (h : ∀ x ∈ xs, Reads item (write x) (value x)) (done : List β) :
    Reads (iterate (fun items => item >>= fun next => pure (next :: items)) xs.length done)
      (xs.flatMap write) ((xs.map value).reverse ++ done) := by
  induction xs generalizing done with
  | nil => exact reads_pure done
  | cons x xs ih =>
    have hx : Reads item (write x) (value x) := h x (List.mem_cons_self ..)
    have hxs := ih (fun y hy => h y (List.mem_cons_of_mem _ hy)) (value x :: done)
    rw [List.map_cons, List.reverse_cons, List.append_assoc]
    exact (hx.map (· :: done)).bind hxs

theorem reads_readMany {α β : Type} {item : Reader β} {write : α → Bytes} {value : α → β}
    {xs : List α} (h : ∀ x ∈ xs, Reads item (write x) (value x)) :
    Reads (readMany xs.length item) (xs.flatMap write) (xs.map value) := by
  have hi := (iterate_reads h []).map List.reverse
  rwa [List.append_nil, List.reverse_reverse] at hi

/-- A counted list, its count in two bytes. -/
theorem reads_countedList {α β : Type} {item : Reader β} {write : α → Bytes} {value : α → β}
    {xs : List α} (hlen : xs.length < 0x10000) (h : ∀ x ∈ xs, Reads item (write x) (value x)) :
    Reads (u2 >>= fun count => readMany count.toNat item)
      (bigEndian 2 xs.length ++ xs.flatMap write) (xs.map value) :=
  reads_count2 (fun n => readMany n item) hlen (reads_readMany h)

/-! ### What was read -/

variable {bs rest : Bytes}

theorem u1_eq_ok_iff {b : UInt8} : u1 bs = .ok (b, rest) ↔ bs = b :: rest := by
  cases bs with
  | nil => simp [u1]
  | cons a bs => simp [u1]

theorem u2_eq_ok_iff {n : UInt16} : u2 bs = .ok (n, rest) ↔ bs = bigEndian 2 n.toNat ++ rest := by
  constructor
  · intro h
    unfold u2 at h
    split at h
    · rename_i a b left
      cases h
      have ha := a.toNat_lt
      have hb := b.toNat_lt
      have hn : (UInt16.ofNat (a.toNat * 256 + b.toNat)).toNat = a.toNat * 256 + b.toNat :=
        UInt16.toNat_ofNat_of_lt' (show _ < 65536 by omega)
      have hhigh : (a.toNat * 256 + b.toNat) / 256 = a.toNat := by omega
      have hlow : UInt8.ofNat (a.toNat * 256 + b.toNat) = b := by
        rw [← UInt8.toNat_inj, UInt8.toNat_ofNat']
        omega
      rw [bigEndian_two, hn, hhigh, hlow, UInt8.ofNat_toNat]
      rfl
    · cases h
  · rintro rfl
    exact reads_u2 n rest

theorem slice_eq_ok_iff {length : Nat} {piece : Bytes} :
    slice length bs = .ok (piece, rest) ↔ piece.length = length ∧ bs = piece ++ rest := by
  rw [← Bytes.split?_eq_some_iff, slice]
  cases Bytes.split? length bs with
  | none => simp
  | some got => simp [Prod.ext_iff]

/-- Every piece is the number of its width that its bytes make. -/
theorem exists_bigEndian {width : Nat} {piece : Bytes} (h : piece.length = width) :
    ∃ n, n < 256 ^ width ∧ piece = bigEndian width n := by
  induction width generalizing piece with
  | zero => exact ⟨0, by decide, List.eq_nil_of_length_eq_zero h⟩
  | succ width ih =>
    have hne : piece ≠ [] := List.ne_nil_of_length_eq_add_one h
    have hlength : piece.dropLast.length = width := by rw [List.length_dropLast, h]; rfl
    obtain ⟨n, hn, hfront⟩ := ih hlength
    have hlast := (piece.getLast hne).toNat_lt
    have hhigh : (n * 256 + (piece.getLast hne).toNat) / 256 = n := by omega
    have hlow : UInt8.ofNat (n * 256 + (piece.getLast hne).toNat) = piece.getLast hne := by
      rw [← UInt8.toNat_inj, UInt8.toNat_ofNat']
      omega
    refine ⟨n * 256 + (piece.getLast hne).toNat, by rw [Nat.pow_succ]; omega, ?_⟩
    rw [bigEndian, hhigh, hlow, ← hfront, List.dropLast_concat_getLast]

end ClassReport.Reader
