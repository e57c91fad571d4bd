import ClassReport.Text.ModifiedUtf8

/-!
# Reading back Unicode text

Text written as UTF-16 code units, and these in turn as modified UTF-8, is read back as it was.
Every statement about one character or one unit carries what is written behind it.
-/

namespace ClassReport

theorem toNat_byte {n : Nat} (h : n < 256) : (UInt8.ofNat n).toNat = n :=
  UInt8.toNat_ofNat_of_lt' h

theorem toNat_unit {n : Nat} (h : n < 65536) : (UInt16.ofNat n).toNat = n :=
  UInt16.toNat_ofNat_of_lt' h

namespace Utf16

/-- No character is a surrogate. -/
theorem toNat_valid (c : Char) :
    c.toNat < 0xD800 ∨ (0xDFFF < c.toNat ∧ c.toNat < 0x110000) := c.valid

theorem decodeOnto_unit {unit : UInt16} (h : isHigh unit = false) (text : String)
    (rest : List UInt16) :
    decodeOnto text (unit :: rest) = decodeOnto (text.push (ofUnit unit)) rest := by
  cases rest with
  | nil => rfl
  | cons low rest => simp only [decodeOnto, h, Bool.false_and, Bool.false_eq_true, if_false]

/-- The first character of the units is the one that they were written for. -/
theorem decodeOnto_encodeChar (c : Char) (text : String) (rest : List UInt16) :
    decodeOnto text (encodeChar c ++ rest) = decodeOnto (text.push c) rest := by
  have hvalid := toNat_valid c
  by_cases hc : c.toNat < 0x10000
  · have hunit : (UInt16.ofNat c.toNat).toNat = c.toNat := UInt16.toNat_ofNat_of_lt' hc
    have hhigh : isHigh (UInt16.ofNat c.toNat) = false := by
      simp only [isHigh, hunit, Bool.and_eq_false_iff, decide_eq_false_iff_not]
      omega
    have hlow : isLow (UInt16.ofNat c.toNat) = false := by
      simp only [isLow, hunit, Bool.and_eq_false_iff, decide_eq_false_iff_not]
      omega
    have hchar : ofUnit (UInt16.ofNat c.toNat) = c := by
      rw [ofUnit, hhigh, hlow, hunit]
      exact Char.ofNat_toNat c
    rw [encodeChar, if_pos hc, List.cons_append, List.nil_append, decodeOnto_unit hhigh, hchar]
  · have hrange : 0x10000 ≤ c.toNat ∧ c.toNat < 0x110000 := by omega
    have hh : (UInt16.ofNat (0xD800 + (c.toNat - 0x10000) / 0x400)).toNat =
        0xD800 + (c.toNat - 0x10000) / 0x400 := toNat_unit (by omega)
    have hl : (UInt16.ofNat (0xDC00 + (c.toNat - 0x10000) % 0x400)).toNat =
        0xDC00 + (c.toNat - 0x10000) % 0x400 := toNat_unit (by omega)
    have hhigh : isHigh (UInt16.ofNat (0xD800 + (c.toNat - 0x10000) / 0x400)) = true := by
      simp only [isHigh, hh, Bool.and_eq_true, decide_eq_true_eq]
      omega
    have hlow : isLow (UInt16.ofNat (0xDC00 + (c.toNat - 0x10000) % 0x400)) = true := by
      simp only [isLow, hl, Bool.and_eq_true, decide_eq_true_eq]
      omega
    have hchar : ofPair (UInt16.ofNat (0xD800 + (c.toNat - 0x10000) / 0x400))
        (UInt16.ofNat (0xDC00 + (c.toNat - 0x10000) % 0x400)) = c := by
      have hcode : 0x10000 + (0xD800 + (c.toNat - 0x10000) / 0x400 - 0xD800) * 0x400 +
          (0xDC00 + (c.toNat - 0x10000) % 0x400 - 0xDC00) = c.toNat := by omega
      rw [ofPair, hh, hl, hcode]
      exact Char.ofNat_toNat c
    rw [encodeChar, if_neg hc]
    show decodeOnto text (_ :: _ :: rest) = _
    rw [decodeOnto, hhigh, hlow, Bool.and_self, if_pos rfl, hchar]

theorem toList_decodeOnto (text : String) (chars : List Char) :
    (decodeOnto text (chars.flatMap encodeChar)).toList = text.toList ++ chars := by
  induction chars generalizing text with
  | nil => rw [List.flatMap_nil, decodeOnto, List.append_nil]
  | cons c chars ih =>
    rw [List.flatMap_cons, decodeOnto_encodeChar, ih, String.toList_push, List.append_assoc]
    rfl

theorem decode_encode (text : String) : decode (encode text) = text := by
  have h := toList_decodeOnto "" text.toList
  rw [← String.toList_inj, decode, encode, h]
  rfl

end Utf16

namespace ModifiedUtf8

/-- A code unit as it is written: NUL in two bytes, every other unit in as few as hold it. -/
def encodeUnit (unit : UInt16) : Bytes :=
  if 0 < unit.toNat ∧ unit.toNat < 0x80 then [UInt8.ofNat unit.toNat]
  else if unit.toNat < 0x800 then
    [UInt8.ofNat (0xC0 + unit.toNat / 0x40), UInt8.ofNat (0x80 + unit.toNat % 0x40)]
  else
    [UInt8.ofNat (0xE0 + unit.toNat / 0x1000), UInt8.ofNat (0x80 + unit.toNat / 0x40 % 0x40),
      UInt8.ofNat (0x80 + unit.toNat % 0x40)]

def encode (text : String) : Bytes := (Utf16.encode text).flatMap encodeUnit

theorem unitsOnto_two {a b : UInt8} (h : a.toNat / 32 = 6) (units : List UInt16) (rest : Bytes) :
    unitsOnto units (a :: b :: rest) = unitsOnto (ofTwo a b :: units) rest := by
  have hwidth : Width.ofByte a = .two := by
    have hlow : ¬ a.toNat < 0x80 := by omega
    rw [Width.ofByte, if_neg hlow, if_pos h]
  have hfirst : firstUnit a (b :: rest) = (ofTwo a b, rest) := by simp only [firstUnit, hwidth]
  rw [unitsOnto, hfirst]

theorem unitsOnto_three {a b c : UInt8} (h : a.toNat / 16 = 14) (units : List UInt16)
    (rest : Bytes) :
    unitsOnto units (a :: b :: c :: rest) = unitsOnto (ofThree a b c :: units) rest := by
  have hwidth : Width.ofByte a = .three := by
    have hlow : ¬ a.toNat < 0x80 := by omega
    have htwo : ¬ a.toNat / 32 = 6 := by omega
    rw [Width.ofByte, if_neg hlow, if_neg htwo, if_pos h]
  have hfirst : firstUnit a (b :: c :: rest) = (ofThree a b c, rest) := by
    simp only [firstUnit, hwidth]
  rw [unitsOnto, hfirst]

theorem unitsOnto_encodeUnit (unit : UInt16) (units : List UInt16) (rest : Bytes) :
    unitsOnto units (encodeUnit unit ++ rest) = unitsOnto (unit :: units) rest := by
  have hlt := unit.toNat_lt
  unfold encodeUnit
  split
  · rename_i h
    have hb : (UInt8.ofNat unit.toNat).toNat = unit.toNat := toNat_byte (by omega)
    have hwidth : Width.ofByte (UInt8.ofNat unit.toNat) = .one := by
      rw [Width.ofByte, hb, if_pos h.2]
    have hfirst : firstUnit (UInt8.ofNat unit.toNat) rest = (unit, rest) := by
      simp only [firstUnit, hwidth, hb, UInt16.ofNat_toNat]
    rw [List.cons_append, List.nil_append, unitsOnto, hfirst]
  · split
    · rename_i h
      have ha : (UInt8.ofNat (0xC0 + unit.toNat / 0x40)).toNat = 0xC0 + unit.toNat / 0x40 :=
        toNat_byte (by omega)
      have hb : (UInt8.ofNat (0x80 + unit.toNat % 0x40)).toNat = 0x80 + unit.toNat % 0x40 :=
        toNat_byte (by omega)
      have hunit : ofTwo (UInt8.ofNat (0xC0 + unit.toNat / 0x40))
          (UInt8.ofNat (0x80 + unit.toNat % 0x40)) = unit := by
        have hcode : (0xC0 + unit.toNat / 0x40) % 32 * 64 + (0x80 + unit.toNat % 0x40) % 64 =
            unit.toNat := by omega
        rw [ofTwo, ha, hb, hcode, UInt16.ofNat_toNat]
      rw [List.cons_append, List.cons_append, List.nil_append,
        unitsOnto_two (by rw [ha]; omega), hunit]
    · rename_i h
      have ha : (UInt8.ofNat (0xE0 + unit.toNat / 0x1000)).toNat = 0xE0 + unit.toNat / 0x1000 :=
        toNat_byte (by omega)
      have hb : (UInt8.ofNat (0x80 + unit.toNat / 0x40 % 0x40)).toNat =
          0x80 + unit.toNat / 0x40 % 0x40 :=
        toNat_byte (by omega)
      have hc : (UInt8.ofNat (0x80 + unit.toNat % 0x40)).toNat = 0x80 + unit.toNat % 0x40 :=
        toNat_byte (by omega)
      have hunit : ofThree (UInt8.ofNat (0xE0 + unit.toNat / 0x1000))
          (UInt8.ofNat (0x80 + unit.toNat / 0x40 % 0x40))
          (UInt8.ofNat (0x80 + unit.toNat % 0x40)) = unit := by
        have hcode : (0xE0 + unit.toNat / 0x1000) % 16 * 4096 +
            (0x80 + unit.toNat / 0x40 % 0x40) % 64 * 64 + (0x80 + unit.toNat % 0x40) % 64 =
            unit.toNat := by omega
        rw [ofThree, ha, hb, hc, hcode, UInt16.ofNat_toNat]
      rw [List.cons_append, List.cons_append, List.cons_append, List.nil_append,
        unitsOnto_three (by rw [ha]; omega), hunit]

theorem unitsOnto_encodeUnits (written units : List UInt16) :
    unitsOnto units (written.flatMap encodeUnit) = units.reverse ++ written := by
  induction written generalizing units with
  | nil => rw [List.flatMap_nil, unitsOnto, List.append_nil]
  | cons unit written ih =>
    rw [List.flatMap_cons, unitsOnto_encodeUnit, ih, List.reverse_cons, List.append_assoc]
    rfl

theorem decode_encode (text : String) : decode (encode text) = text := by
  have h := unitsOnto_encodeUnits (Utf16.encode text) []
  rw [decode, units, encode, h]
  exact Utf16.decode_encode text

end ModifiedUtf8

end ClassReport
