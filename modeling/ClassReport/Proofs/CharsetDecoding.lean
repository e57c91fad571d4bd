import ClassReport.Charset.Basic
import ClassReport.Proofs.UnicodeText

/-!
# Texts in pieces

A text may be cut into pieces that are written one after another: anywhere in a Unicode charset, and behind
plain ASCII in every charset (`encode_append`). What a Unicode charset wrote is read back as it was
(`decode?_encode`).
-/

namespace ClassReport.Charset

theorem Encoder.write_append (encoder : Encoder) {first : List Char}
    (h : ∀ c ∈ first, isPlain c = true) (rest : List Char) :
    encoder.write (first ++ rest) = (first.map fun c => UInt8.ofNat c.toNat) ++ encoder.write rest := by
  induction first with
  | nil => rfl
  | cons c first ih =>
    obtain ⟨hc, hfirst⟩ := List.forall_mem_cons.mp h
    rw [List.cons_append, encoder.write_plain c _ hc, ih hfirst, List.map_cons, List.cons_append]

/-- A plain text is written byte for byte. -/
theorem Encoder.write_of_plain (encoder : Encoder) {text : List Char} (h : ∀ c ∈ text, isPlain c = true) :
    encoder.write text = text.map fun c => UInt8.ofNat c.toNat := by
  have hwhole := encoder.write_append h []
  rwa [List.append_nil, encoder.write_nil, List.append_nil] at hwhole

namespace Coding

/-- Whether a charset can write every text. -/
def isUnicode : Coding → Bool
  | .utf8 | .utf16 _ => true
  | _ => false

/-- The bytes of a text are those of its pieces, if the charset can write every text or the first piece is
plain. -/
theorem encode_append (coding : Coding) {first : String}
    (h : coding.isUnicode = true ∨ ∀ c ∈ first.toList, isPlain c = true) (rest : String) :
    coding.encode (first ++ rest) = coding.encode first ++ coding.encode rest := by
  cases coding with
  | utf8 => exact utf8Bytes_append first rest
  | utf16 order => simp [encode, Utf16.encode]
  | singleByte upper => simp [encode]
  | multiByte encoder =>
    obtain hunicode | hplain := h
    · cases hunicode
    · rw [encode, encode, encode, String.toList_append, encoder.write_append hplain,
        encoder.write_of_plain hplain]

end Coding

/-! ### Reading back -/

def ByteOrder.unit : ByteOrder → UInt8 → UInt8 → UInt16
  | .high, a, b => UInt16.ofNat (a.toNat * 256 + b.toNat)
  | .low, a, b => UInt16.ofNat (b.toNat * 256 + a.toNat)

/-- The code units of some bytes, if these come in pairs. -/
def ByteOrder.units? (first : ByteOrder) : Bytes → Option (List UInt16)
  | [] => some []
  | [_] => none
  | a :: b :: rest => (first.units? rest).map (first.unit a b :: ·)

theorem ByteOrder.units?_bytes (first : ByteOrder) (unit : UInt16) (rest : Bytes) :
    first.units? (first.bytes unit ++ rest) = (first.units? rest).map (unit :: ·) := by
  have hhigh : (UInt8.ofNat (unit.toNat / 256)).toNat = unit.toNat / 256 :=
    toNat_byte (by have h := unit.toNat_lt; omega)
  have hlow : (UInt8.ofNat (unit.toNat % 256)).toNat = unit.toNat % 256 :=
    toNat_byte (by omega)
  have hunit : UInt16.ofNat (unit.toNat / 256 * 256 + unit.toNat % 256) = unit := by
    rw [Nat.div_add_mod']
    exact UInt16.ofNat_toNat
  cases first with
  | high =>
    rw [ByteOrder.bytes, Utf16.bigEndian, List.cons_append, List.cons_append, units?, ByteOrder.unit,
      hhigh, hlow, hunit]
    rfl
  | low =>
    rw [ByteOrder.bytes, Utf16.littleEndian, List.cons_append, List.cons_append, units?,
      ByteOrder.unit, hhigh, hlow, hunit]
    rfl

theorem ByteOrder.units?_flatMap (first : ByteOrder) (units : List UInt16) :
    first.units? (units.flatMap first.bytes) = some units := by
  induction units with
  | nil => rfl
  | cons unit units ih =>
    rw [List.flatMap_cons, units?_bytes, ih]
    rfl

/-- The text that bytes stand for in a Unicode charset. -/
def Coding.decode? (coding : Coding) (bytes : Bytes) : Option String :=
  match coding with
  | .utf8 => String.fromUTF8? ⟨bytes.toArray⟩
  | .utf16 first => (first.units? bytes).map Utf16.decode
  | _ => none

namespace Coding

theorem decode?_encode {coding : Coding} (h : coding.isUnicode = true) (text : String) :
    coding.decode? (coding.encode text) = some text := by
  cases coding with
  | utf8 =>
    rw [decode?, encode, Array.toArray_toList]
    exact dif_pos text.isValidUTF8
  | utf16 first =>
    rw [decode?, encode, ByteOrder.units?_flatMap, Option.map_some, Utf16.decode_encode]
  | singleByte upper => cases h
  | multiByte encoder => cases h

theorem encode_empty (coding : Coding) : coding.encode "" = [] := by
  cases coding with
  | utf8 => rfl
  | utf16 first => rfl
  | singleByte upper => rfl
  | multiByte encoder => exact encoder.write_nil

theorem encode_ne_nil (coding : Coding) {text : String}
    (hplain : ∀ c ∈ text.toList, isPlain c = true) (hne : text ≠ "") : coding.encode text ≠ [] := by
  have hunicode (hu : coding.isUnicode = true) : coding.encode text ≠ [] := by
    intro hnil
    have htwice := decode?_encode hu text
    rw [hnil, ← encode_empty coding, decode?_encode hu, Option.some.injEq] at htwice
    exact hne htwice.symm
  cases hchars : text.toList with
  | nil => exact absurd (String.toList_eq_nil_iff.mp hchars) hne
  | cons c rest =>
    have hc : isPlain c = true := hplain c (by rw [hchars]; exact List.mem_cons_self)
    cases coding with
    | utf8 => exact hunicode rfl
    | utf16 first => exact hunicode rfl
    | singleByte upper => simp [encode, hchars, singleByte?, lt_of_isPlain hc]
    | multiByte encoder =>
      rw [encode, hchars, encoder.write_plain c rest hc]
      exact List.cons_ne_nil _ _

end Coding

end ClassReport.Charset
