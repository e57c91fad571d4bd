import ClassReport.Bytes

/-!
# The order of texts

Texts compare as their characters do, and UTF-8 keeps that order: the bytes of texts compare as the
texts (`utf8_lt_iff`), so that lists of names are in the order of their bytes.
-/

namespace ClassReport

namespace Utf8Order

/-- The first of four digits in which two numbers differ decides as the numbers do. -/
theorem lt_digits {v w : Nat} (h : v < w) :
    v / 262144 < w / 262144 ∨ v / 262144 = w / 262144 ∧ (v / 4096 % 64 < w / 4096 % 64 ∨
      v / 4096 % 64 = w / 4096 % 64 ∧ (v / 64 % 64 < w / 64 % 64 ∨
        v / 64 % 64 = w / 64 % 64 ∧ v % 64 < w % 64)) := by
  have hlow : v / 64 < w / 64 ∨ v / 64 = w / 64 ∧ v % 64 < w % 64 := by omega
  have hmiddle : v / 64 < w / 64 →
      v / 4096 < w / 4096 ∨ v / 4096 = w / 4096 ∧ v / 64 % 64 < w / 64 % 64 := by omega
  have hhigh : v / 4096 < w / 4096 →
      v / 262144 < w / 262144 ∨ v / 262144 = w / 262144 ∧ v / 4096 % 64 < w / 4096 % 64 := by omega
  omega

/-- The first byte in which two characters differ decides as the characters do. -/
theorem encodeChar_lt {c d : Char} (h : c < d) (first second : Bytes) :
    String.utf8EncodeChar c ++ first < String.utf8EncodeChar d ++ second := by
  have hlt : c.val.toNat < d.val.toNat := h
  have hmax : d.val.toNat < 0x110000 := by
    rcases d.valid with hd | hd
    · exact Nat.lt_trans hd (by decide)
    · exact hd.2
  have hdigits := lt_digits hlt
  have hfirst (n : Nat) (hn : n < 0x110000) : (n / 262144 % 8 + 240) % 256 = n / 262144 + 240 := by
    omega
  have hbyte (n width mark : Nat) (hwidth : 0 < width) (hmark : width + mark ≤ 256) :
      (n % width + mark) % 256 = n % width + mark := by
    have hn := Nat.mod_lt n hwidth
    exact Nat.mod_eq_of_lt (by omega)
  simp only [String.utf8EncodeChar]
  generalize c.val.toNat = v at *
  generalize d.val.toNat = w at *
  -- One case for each pair of lengths; the shorter one has the smaller first byte.
  repeat' split
  all_goals
    simp only [List.cons_append, List.nil_append, List.cons_lt_cons_iff, UInt8.lt_iff_toNat_lt,
      ← UInt8.toNat_inj, UInt8.toNat_ofNat', hbyte _ 64 128 (by decide) (by decide),
      hbyte _ 32 192 (by decide) (by decide), hbyte _ 16 224 (by decide) (by decide),
      hfirst _ hmax, hfirst _ (Nat.lt_trans hlt hmax)]
    omega

theorem encode_lt {chars others : List Char} (h : chars < others) :
    chars.flatMap String.utf8EncodeChar < others.flatMap String.utf8EncodeChar := by
  induction chars generalizing others with
  | nil =>
    cases others with
    | nil => exact absurd h (List.lt_irrefl _)
    | cons d others =>
      obtain ⟨b, bs, hbytes⟩ := List.exists_cons_of_ne_nil (String.utf8EncodeChar_ne_nil (c := d))
      rw [List.flatMap_nil, List.flatMap_cons, hbytes]
      exact List.nil_lt_cons _ _
  | cons c chars ih =>
    cases others with
    | nil => exact absurd h (List.not_lt_nil _)
    | cons d others =>
      rw [List.flatMap_cons, List.flatMap_cons]
      rcases List.cons_lt_cons_iff.mp h with hlt | ⟨rfl, hrest⟩
      · exact encodeChar_lt hlt _ _
      · exact List.append_left_lt (ih hrest)

theorem utf8Bytes_eq (text : String) :
    utf8Bytes text = text.toList.flatMap String.utf8EncodeChar := by
  rw [utf8Bytes, ← String.utf8Encode_toList, List.utf8Encode, List.data_toByteArray]

theorem utf8_lt_iff {text other : String} : utf8Bytes text < utf8Bytes other ↔ text < other := by
  have hlt {text other : String} (h : text < other) : utf8Bytes text < utf8Bytes other := by
    rw [utf8Bytes_eq, utf8Bytes_eq]
    exact encode_lt h
  constructor
  · intro h
    by_cases hless : text < other
    · exact hless
    by_cases hmore : other < text
    · exact absurd (hlt hmore) (List.lt_asymm h)
    · have hsame : text = other := String.le_antisymm hmore hless
      rw [hsame] at h
      exact absurd h (List.lt_irrefl _)
  · exact hlt

theorem utf8_inj {text other : String} : utf8Bytes text = utf8Bytes other ↔ text = other := by
  constructor
  · intro h
    have hless : ¬ text < other := by
      rw [← utf8_lt_iff, h]
      exact List.lt_irrefl _
    have hmore : ¬ other < text := by
      rw [← utf8_lt_iff, h]
      exact List.lt_irrefl _
    exact String.le_antisymm hmore hless
  · rintro rfl
    rfl

theorem map_utf8_lt_iff {names others : List String} :
    names.map utf8Bytes < others.map utf8Bytes ↔ names < others := by
  induction names generalizing others with
  | nil => cases others <;> simp
  | cons name names ih =>
    cases others with
    | nil => simp
    | cons other others =>
      rw [List.map_cons, List.map_cons, List.cons_lt_cons_iff, List.cons_lt_cons_iff, utf8_lt_iff,
        utf8_inj, ih]

end Utf8Order

end ClassReport
