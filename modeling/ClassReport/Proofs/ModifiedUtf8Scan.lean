import ClassReport.Proofs.TextOrder
import ClassReport.Proofs.UnicodeText

/-!
# Scanning modified UTF-8

What a scan of any bytes gives. `Scanned` cuts bytes into complete units and single bytes that start
none, and `scanFrom?` goes through them by index and bit, with nothing as its result if it asks for a byte
that is not there; both give the units of the bytes (`scanned_iff`, `scanFrom?_eq`). `Utf16.Reads` is the
text that units say, with U+FFFD for each surrogate without a partner. Units are scanned as they were
written, in whatever form, so that texts are read back (`decode_written`).
-/

namespace ClassReport

theorem toNat_ofNat_of_valid {n : Nat} (h : n.isValidChar) : (Char.ofNat n).toNat = n := by
  unfold Char.ofNat
  rw [dif_pos h]
  rfl

namespace Utf16

/-! ### What units say -/

def isSurrogate (unit : UInt16) : Bool := isHigh unit || isLow unit

/-- The text that units say. A character stands for its one unit or its pair, U+FFFD for a surrogate that
is no half of a pair. -/
inductive Reads : List UInt16 → List Char → Prop
  | nil : Reads [] []
  | char {units : List UInt16} {chars : List Char} (c : Char) (h : Reads units chars) :
      Reads (encodeChar c ++ units) (c :: chars)
  | lone {unit : UInt16} {units : List UInt16} {chars : List Char} (hlone : isSurrogate unit = true)
      (hpair : isHigh unit = true → ∀ low ∈ units.head?, isLow low = false) (h : Reads units chars) :
      Reads (unit :: units) (replacement :: chars)

theorem encodeChar_ofUnit {unit : UInt16} (h : isSurrogate unit = false) :
    encodeChar (ofUnit unit) = [unit] := by
  have hlt := unit.toNat_lt
  have hofUnit : ofUnit unit = Char.ofNat unit.toNat := if_neg (ne_true_of_eq_false h)
  have hvalid : unit.toNat.isValidChar := by
    simp only [isSurrogate, isHigh, isLow, Bool.or_eq_false_iff, Bool.and_eq_false_iff,
      decide_eq_false_iff_not] at h
    unfold Nat.isValidChar
    omega
  rw [hofUnit, encodeChar, toNat_ofNat_of_valid hvalid, if_pos (by omega), UInt16.ofNat_toNat]

theorem encodeChar_ofPair {high low : UInt16} (hhigh : isHigh high = true)
    (hlow : isLow low = true) : encodeChar (ofPair high low) = [high, low] := by
  simp only [isHigh, Bool.and_eq_true, decide_eq_true_eq] at hhigh
  simp only [isLow, Bool.and_eq_true, decide_eq_true_eq] at hlow
  obtain ⟨code, hcode⟩ : ∃ code, code =
      0x10000 + (high.toNat - 0xD800) * 0x400 + (low.toNat - 0xDC00) := ⟨_, rfl⟩
  have hvalid : code.isValidChar := Or.inr (by omega)
  have hfirst : 0xD800 + (code - 0x10000) / 0x400 = high.toNat := by omega
  have hsecond : 0xDC00 + (code - 0x10000) % 0x400 = low.toNat := by omega
  rw [ofPair, ← hcode, encodeChar, toNat_ofNat_of_valid hvalid, if_neg (by omega), hfirst, hsecond,
    UInt16.ofNat_toNat, UInt16.ofNat_toNat]

/-- A unit that starts no pair is read by itself. -/
theorem Reads.alone {unit : UInt16} {units : List UInt16} {chars : List Char}
    (hpair : isHigh unit = true → ∀ low ∈ units.head?, isLow low = false) (h : Reads units chars) :
    Reads (unit :: units) (ofUnit unit :: chars) := by
  cases hlone : isSurrogate unit with
  | true =>
    have hofUnit : ofUnit unit = replacement := if_pos hlone
    rw [hofUnit]
    exact .lone hlone hpair h
  | false =>
    have hchar := Reads.char (ofUnit unit) h
    rw [encodeChar_ofUnit hlone] at hchar
    exact hchar

theorem exists_reads : ∀ units : List UInt16, ∃ chars, Reads units chars
  | [] => ⟨[], .nil⟩
  | [unit] => ⟨_, .alone (by simp) .nil⟩
  | high :: low :: rest => by
    cases hpair : isHigh high && isLow low with
    | true =>
      obtain ⟨hhigh, hlow⟩ := Bool.and_eq_true_iff.mp hpair
      obtain ⟨chars, h⟩ := exists_reads rest
      have hchar := Reads.char (ofPair high low) h
      rw [encodeChar_ofPair hhigh hlow] at hchar
      exact ⟨_, hchar⟩
    | false =>
      obtain ⟨chars, h⟩ := exists_reads (low :: rest)
      refine ⟨_, .alone (fun hhigh => ?_) h⟩
      rw [hhigh, Bool.true_and] at hpair
      simpa using hpair

theorem decodeOnto_lone {unit : UInt16} {units : List UInt16} (hlone : isSurrogate unit = true)
    (hpair : isHigh unit = true → ∀ low ∈ units.head?, isLow low = false) (text : String) :
    decodeOnto text (unit :: units) = decodeOnto (text.push replacement) units := by
  have hofUnit : ofUnit unit = replacement := if_pos hlone
  cases units with
  | nil =>
    rw [decodeOnto, decodeOnto, hofUnit]
  | cons low rest =>
    have hno : (isHigh unit && isLow low) = false := by
      cases hhigh : isHigh unit with
      | false => rfl
      | true => exact hpair hhigh low rfl
    rw [decodeOnto, hno, if_neg Bool.false_ne_true, hofUnit]

theorem Reads.toList_decodeOnto {units : List UInt16} {chars : List Char} (h : Reads units chars)
    (text : String) : (decodeOnto text units).toList = text.toList ++ chars := by
  induction h generalizing text with
  | nil => rw [decodeOnto, List.append_nil]
  | char c _ ih => rw [decodeOnto_encodeChar, ih, String.toList_push, List.append_assoc, List.singleton_append]
  | lone hlone hpair _ ih =>
    rw [decodeOnto_lone hlone hpair, ih, String.toList_push, List.append_assoc, List.singleton_append]

theorem reads_iff {units : List UInt16} {chars : List Char} :
    Reads units chars ↔ chars = (decode units).toList := by
  have hdecode {chars : List Char} (h : Reads units chars) : chars = (decode units).toList := by
    rw [decode, h.toList_decodeOnto]
    rfl
  constructor
  · exact hdecode
  · rintro rfl
    obtain ⟨chars, h⟩ := exists_reads units
    rw [← hdecode h]
    exact h

end Utf16

namespace ModifiedUtf8

/-! ### Units in bytes -/

/-- Bytes that might be a unit. -/
inductive Group where
  | one (a : UInt8)
  | two (a b : UInt8)
  | three (a b c : UInt8)
  deriving DecidableEq, Repr

namespace Group

def bytes : Group → Bytes
  | one a => [a]
  | two a b => [a, b]
  | three a b c => [a, b, c]

/-- The first byte is of the form `0xxxxxxx`, `110xxxxx` or `1110xxxx`, as many bytes there are. -/
def IsUnit : Group → Prop
  | one a => a.toNat < 0x80
  | two a _ => a.toNat / 32 = 6
  | three a _ _ => a.toNat / 16 = 14

/-- The bits that are left without the marks of the bytes. -/
def unit : Group → UInt16
  | one a => UInt16.ofNat a.toNat
  | two a b => ofTwo a b
  | three a b c => ofThree a b c

end Group

/-- Bytes as complete units, and as one unit U+FFFD for each byte that starts none. -/
inductive Scanned : Bytes → List UInt16 → Prop
  | nil : Scanned [] []
  | group {rest : Bytes} {units : List UInt16} (group : Group) (hunit : group.IsUnit)
      (h : Scanned rest units) : Scanned (group.bytes ++ rest) (group.unit :: units)
  | stray {a : UInt8} {rest : Bytes} {units : List UInt16}
      (hnone : ∀ group : Group, group.IsUnit → ¬ group.bytes <+: a :: rest)
      (h : Scanned rest units) : Scanned (a :: rest) (0xFFFD :: units)

theorem width_eq_iff (a : UInt8) :
    (Width.ofByte a = .one ↔ a.toNat < 0x80) ∧ (Width.ofByte a = .two ↔ a.toNat / 32 = 6) ∧
      (Width.ofByte a = .three ↔ a.toNat / 16 = 14) := by
  unfold Width.ofByte
  split
  · simp only [true_iff, reduceCtorEq, false_iff]
    omega
  · split
    · simp only [true_iff, reduceCtorEq, false_iff]
      omega
    · split
      · simp only [true_iff, reduceCtorEq, false_iff]
        omega
      · simp only [reduceCtorEq, false_iff]
        omega

theorem unitsOnto_group {group : Group} (h : group.IsUnit) (units : List UInt16) (rest : Bytes) :
    unitsOnto units (group.bytes ++ rest) = unitsOnto (group.unit :: units) rest := by
  cases group with
  | one a =>
    have hwidth : Width.ofByte a = .one := if_pos h
    have hfirst : firstUnit a rest = (UInt16.ofNat a.toNat, rest) := by simp only [firstUnit, hwidth]
    show unitsOnto units (a :: rest) = _
    rw [unitsOnto, hfirst]
    rfl
  | two a b => exact unitsOnto_two h units rest
  | three a b c => exact unitsOnto_three h units rest

/-- The first unit of bytes is a complete one, or U+FFFD where none is in front. -/
theorem firstUnit_cases (a : UInt8) (rest : Bytes) :
    (∃ group : Group, group.IsUnit ∧ a :: rest = group.bytes ++ (firstUnit a rest).2 ∧
      (firstUnit a rest).1 = group.unit) ∨
    ((∀ group : Group, group.IsUnit → ¬ group.bytes <+: a :: rest) ∧
      firstUnit a rest = (0xFFFD, rest)) := by
  unfold firstUnit
  split
  · rename_i hwidth
    exact Or.inl ⟨.one a, (width_eq_iff a).1.mp hwidth, rfl, rfl⟩
  · rename_i b left hwidth
    exact Or.inl ⟨.two a b, (width_eq_iff a).2.1.mp hwidth, rfl, rfl⟩
  · rename_i b c left hwidth
    exact Or.inl ⟨.three a b c, (width_eq_iff a).2.2.mp hwidth, rfl, rfl⟩
  · rename_i hone htwo hthree
    refine Or.inr ⟨fun group hunit hfront => ?_, rfl⟩
    obtain ⟨left, hleft⟩ := hfront
    cases group with
    | one a' =>
      cases hleft
      exact hone ((width_eq_iff a).1.mpr hunit)
    | two a' b =>
      cases hleft
      exact htwo b left ((width_eq_iff a).2.1.mpr hunit) rfl
    | three a' b c =>
      cases hleft
      exact hthree b c left ((width_eq_iff a).2.2.mpr hunit) rfl

theorem Scanned.unitsOnto_eq {bytes : Bytes} {scanned : List UInt16} (h : Scanned bytes scanned)
    (units : List UInt16) : unitsOnto units bytes = units.reverse ++ scanned := by
  induction h generalizing units with
  | nil => rw [unitsOnto, List.append_nil]
  | group group hunit _ ih =>
    rw [unitsOnto_group hunit, ih, List.reverse_cons, List.append_assoc, List.singleton_append]
  | @stray a rest _ hnone _ ih =>
    have hfirst : firstUnit a rest = (0xFFFD, rest) := by
      rcases firstUnit_cases a rest with ⟨group, hunit, hbytes, -⟩ | ⟨-, hfirst⟩
      · exact absurd ⟨_, hbytes.symm⟩ (hnone group hunit)
      · exact hfirst
    rw [unitsOnto, hfirst, ih, List.reverse_cons, List.append_assoc, List.singleton_append]

theorem exists_scanned (bytes : Bytes) : ∃ units, Scanned bytes units := by
  induction hlength : bytes.length using Nat.strongRecOn generalizing bytes with
  | ind length ih =>
    cases bytes with
    | nil => exact ⟨[], .nil⟩
    | cons a rest =>
      have hle := firstUnit_length_le a rest
      rw [List.length_cons] at hlength
      obtain ⟨units, h⟩ := ih _ (by omega) (firstUnit a rest).2 rfl
      rcases firstUnit_cases a rest with ⟨group, hunit, hbytes, -⟩ | ⟨hnone, hfirst⟩
      · rw [hbytes]
        exact ⟨_, .group group hunit h⟩
      · rw [hfirst] at h
        exact ⟨_, .stray hnone h⟩

theorem scanned_iff {bytes : Bytes} {scanned : List UInt16} :
    Scanned bytes scanned ↔ scanned = units bytes := by
  have hunits {scanned : List UInt16} (h : Scanned bytes scanned) : scanned = units bytes := by
    rw [units, h.unitsOnto_eq]
    rfl
  constructor
  · exact hunits
  · rintro rfl
    obtain ⟨scanned, h⟩ := exists_scanned bytes
    rw [← hunits h]
    exact h

theorem units_group {group : Group} (h : group.IsUnit) (rest : Bytes) :
    units (group.bytes ++ rest) = group.unit :: units rest :=
  (scanned_iff.mp (.group group h (scanned_iff.mpr rfl))).symm

theorem units_stray {a : UInt8} {rest : Bytes}
    (hnone : ∀ group : Group, group.IsUnit → ¬ group.bytes <+: a :: rest) :
    units (a :: rest) = 0xFFFD :: units rest :=
  (scanned_iff.mp (.stray hnone (scanned_iff.mpr rfl))).symm

/-! ### By index and bit -/

/-- The units from a place on. A byte that is asked for and not there makes the whole of it nothing. -/
def scanFrom? (bytes : Bytes) (i : Nat) : Option (List UInt16) :=
  if i < bytes.length then
    bytes[i]?.bind fun a =>
      if a &&& 0x80 = 0 then (scanFrom? bytes (i + 1)).map (a.toUInt16 :: ·)
      else if a &&& 0xE0 = 0xC0 ∧ i + 1 < bytes.length then
        bytes[i + 1]?.bind fun b =>
          (scanFrom? bytes (i + 2)).map (((a &&& 0x1F).toUInt16 <<< 6 ||| (b &&& 0x3F).toUInt16) :: ·)
      else if a &&& 0xF0 = 0xE0 ∧ i + 2 < bytes.length then
        bytes[i + 1]?.bind fun b => bytes[i + 2]?.bind fun c =>
          (scanFrom? bytes (i + 3)).map (((a &&& 0x0F).toUInt16 <<< 12 |||
            (b &&& 0x3F).toUInt16 <<< 6 ||| (c &&& 0x3F).toUInt16) :: ·)
      else (scanFrom? bytes (i + 1)).map ((0xFFFD : UInt16) :: ·)
  else some []
termination_by bytes.length - i

theorem masked_iff (a : UInt8) :
    (a &&& 0x80 = 0 ↔ a.toNat < 0x80) ∧ (a &&& 0xE0 = 0xC0 ↔ a.toNat / 32 = 6) ∧
      (a &&& 0xF0 = 0xE0 ↔ a.toNat / 16 = 14) := by
  have hall : ∀ n < 256,
      (UInt8.ofNat n &&& 0x80 = 0 ↔ (UInt8.ofNat n).toNat < 0x80) ∧
      (UInt8.ofNat n &&& 0xE0 = 0xC0 ↔ (UInt8.ofNat n).toNat / 32 = 6) ∧
      (UInt8.ofNat n &&& 0xF0 = 0xE0 ↔ (UInt8.ofNat n).toNat / 16 = 14) := by
    decide +kernel
  have ha := hall a.toNat a.toNat_lt
  rwa [UInt8.ofNat_toNat] at ha

theorem toNat_masked (a mask : UInt8) {bound : Nat} (h : ∀ n, n &&& mask.toNat = n % bound) :
    (a &&& mask).toUInt16.toNat = a.toNat % bound := by
  rw [UInt8.toNat_toUInt16, UInt8.toNat_and, h]

theorem toNat_masked_six (a : UInt8) : (a &&& 0x3F).toUInt16.toNat = a.toNat % 64 :=
  toNat_masked a 0x3F fun n => Nat.and_two_pow_sub_one_eq_mod n 6

theorem or_eq_ofTwo (a b : UInt8) :
    (a &&& 0x1F).toUInt16 <<< 6 ||| (b &&& 0x3F).toUInt16 = ofTwo a b := by
  have ha : (a &&& 0x1F).toUInt16.toNat = a.toNat % 32 :=
    toNat_masked a 0x1F fun n => Nat.and_two_pow_sub_one_eq_mod n 5
  have hlow : b.toNat % 64 < 2 ^ 6 := Nat.mod_lt _ (by decide)
  have hhigh : (a.toNat % 32) <<< 6 % 2 ^ 16 = (a.toNat % 32) <<< 6 := by
    rw [Nat.shiftLeft_eq]
    omega
  have hsix : ((6 : UInt16).toNat % 16) = 6 := rfl
  have hsum : a.toNat % 32 * 2 ^ 6 + b.toNat % 64 = a.toNat % 32 * 64 + b.toNat % 64 := by
    omega
  rw [← UInt16.toNat_inj, UInt16.toNat_or, UInt16.toNat_shiftLeft, ha, toNat_masked_six, hsix, hhigh,
    ← Nat.shiftLeft_add_eq_or_of_lt hlow, Nat.shiftLeft_eq, hsum, ofTwo, toNat_unit (by omega)]

theorem or_eq_ofThree (a b c : UInt8) :
    (a &&& 0x0F).toUInt16 <<< 12 ||| (b &&& 0x3F).toUInt16 <<< 6 ||| (c &&& 0x3F).toUInt16 =
      ofThree a b c := by
  have ha : (a &&& 0x0F).toUInt16.toNat = a.toNat % 16 :=
    toNat_masked a 0x0F fun n => Nat.and_two_pow_sub_one_eq_mod n 4
  have htwelve : ((12 : UInt16).toNat % 16) = 12 := rfl
  have hsix : ((6 : UInt16).toNat % 16) = 6 := rfl
  have hhigh : (a.toNat % 16) <<< 12 % 2 ^ 16 = (a.toNat % 16) <<< 12 := by
    rw [Nat.shiftLeft_eq]
    omega
  have hmiddle : (b.toNat % 64) <<< 6 % 2 ^ 16 = (b.toNat % 64) <<< 6 := by
    rw [Nat.shiftLeft_eq]
    omega
  have hmiddleLt : (b.toNat % 64) <<< 6 < 2 ^ 12 := by
    rw [Nat.shiftLeft_eq]
    omega
  have hlow : c.toNat % 64 < 2 ^ 6 := Nat.mod_lt _ (by decide)
  have hjoined : (a.toNat % 16) <<< 12 + (b.toNat % 64) <<< 6 =
      (a.toNat % 16 * 64 + b.toNat % 64) <<< 6 := by
    rw [Nat.shiftLeft_eq, Nat.shiftLeft_eq, Nat.shiftLeft_eq]
    omega
  have hsum : (a.toNat % 16 * 64 + b.toNat % 64) * 2 ^ 6 + c.toNat % 64 =
      a.toNat % 16 * 4096 + b.toNat % 64 * 64 + c.toNat % 64 := by
    omega
  rw [← UInt16.toNat_inj, UInt16.toNat_or, UInt16.toNat_or, UInt16.toNat_shiftLeft,
    UInt16.toNat_shiftLeft, ha, toNat_masked_six, toNat_masked_six, htwelve, hsix, hhigh, hmiddle,
    ← Nat.shiftLeft_add_eq_or_of_lt hmiddleLt, hjoined, ← Nat.shiftLeft_add_eq_or_of_lt hlow,
    Nat.shiftLeft_eq, hsum, ofThree, toNat_unit (by omega)]

/-- At a byte that none of the masks takes, with the bytes that are left, no unit stands. -/
theorem not_group_of_masks {bytes : Bytes} {i : Nat} (hi : i < bytes.length)
    (hone : ¬ bytes[i] &&& 0x80 = 0)
    (htwo : ¬ (bytes[i] &&& 0xE0 = 0xC0 ∧ i + 1 < bytes.length))
    (hthree : ¬ (bytes[i] &&& 0xF0 = 0xE0 ∧ i + 2 < bytes.length)) (group : Group)
    (hunit : group.IsUnit) : ¬ group.bytes <+: bytes[i] :: bytes.drop (i + 1) := by
  obtain ⟨mone, mtwo, mthree⟩ := masked_iff bytes[i]
  intro hfront
  have hlength := hfront.length_le
  rw [List.length_cons, List.length_drop] at hlength
  cases group with
  | one a =>
    obtain rfl := (List.cons_prefix_cons.mp hfront).1
    exact hone (mone.mpr hunit)
  | two a b =>
    obtain rfl := (List.cons_prefix_cons.mp hfront).1
    have htwoBytes : 2 ≤ bytes.length - (i + 1) + 1 := hlength
    exact htwo ⟨mtwo.mpr hunit, by omega⟩
  | three a b c =>
    obtain rfl := (List.cons_prefix_cons.mp hfront).1
    have hthreeBytes : 3 ≤ bytes.length - (i + 1) + 1 := hlength
    exact hthree ⟨mthree.mpr hunit, by omega⟩

/-- Every byte that the scan asks for is there, and what it gives are the units. -/
theorem scanFrom?_eq (bytes : Bytes) (i : Nat) :
    scanFrom? bytes i = some (units (bytes.drop i)) := by
  induction hleft : bytes.length - i using Nat.strongRecOn generalizing i with
  | ind left ih =>
    rw [scanFrom?]
    split
    · rename_i hi
      have hnext (k : Nat) (hk : 0 < k) :
          scanFrom? bytes (i + k) = some (units (bytes.drop (i + k))) :=
        ih _ (by omega) (i + k) rfl
      obtain ⟨mone, mtwo, mthree⟩ := masked_iff bytes[i]
      rw [List.getElem?_eq_getElem hi, Option.bind_some, List.drop_eq_getElem_cons hi]
      split
      · rename_i hone
        have hunits := @units_group (.one bytes[i]) (mone.mp hone) (bytes.drop (i + 1))
        have hsame : bytes[i].toUInt16 = UInt16.ofNat bytes[i].toNat := by
          rw [← UInt16.toNat_inj, UInt8.toNat_toUInt16, toNat_unit (by have := bytes[i].toNat_lt; omega)]
        rw [hnext 1 (by decide), hsame]
        exact congrArg some hunits.symm
      · split
        · rename_i htwo
          have hunits := @units_group (.two bytes[i] bytes[i + 1]) (mtwo.mp htwo.1)
            (bytes.drop (i + 2))
          rw [List.getElem?_eq_getElem htwo.2, Option.bind_some, hnext 2 (by decide), or_eq_ofTwo,
            List.drop_eq_getElem_cons htwo.2]
          exact congrArg some hunits.symm
        · split
          · rename_i hthree
            have hmiddle : i + 1 < bytes.length := by omega
            have hunits := @units_group (.three bytes[i] bytes[i + 1] bytes[i + 2])
              (mthree.mp hthree.1) (bytes.drop (i + 3))
            rw [List.getElem?_eq_getElem hmiddle, Option.bind_some, List.getElem?_eq_getElem hthree.2,
              Option.bind_some, hnext 3 (by decide), or_eq_ofThree, List.drop_eq_getElem_cons hmiddle,
              List.drop_eq_getElem_cons hthree.2]
            exact congrArg some hunits.symm
          · rename_i hone htwo hthree
            rw [hnext 1 (by decide), units_stray (not_group_of_masks hi hone htwo hthree)]
            rfl
    · rename_i hi
      rw [List.drop_eq_nil_of_le (by omega), units, unitsOnto]
      rfl

/-! ### Reading back what was written -/

/-- A unit in bytes: as few as hold it, and for NUL one or two. -/
inductive UnitForm : UInt16 → Bytes → Prop
  | one {unit : UInt16} (h : unit.toNat < 0x80) : UnitForm unit [UInt8.ofNat unit.toNat]
  | nul : UnitForm 0 [0xC0, 0x80]
  | two {unit : UInt16} (hlow : 0x80 ≤ unit.toNat) (hhigh : unit.toNat < 0x800) :
      UnitForm unit [UInt8.ofNat (0xC0 + unit.toNat / 0x40), UInt8.ofNat (0x80 + unit.toNat % 0x40)]
  | three {unit : UInt16} (h : 0x800 ≤ unit.toNat) :
      UnitForm unit [UInt8.ofNat (0xE0 + unit.toNat / 0x1000),
        UInt8.ofNat (0x80 + unit.toNat / 0x40 % 0x40), UInt8.ofNat (0x80 + unit.toNat % 0x40)]

/-- Units one after the other, each in one of its forms. -/
inductive Written : List UInt16 → Bytes → Prop
  | nil : Written [] []
  | cons {unit : UInt16} {front : Bytes} {units : List UInt16} {rest : Bytes}
      (h : UnitForm unit front) (hs : Written units rest) : Written (unit :: units) (front ++ rest)

theorem unitForm_encodeUnit (unit : UInt16) : UnitForm unit (encodeUnit unit) := by
  unfold encodeUnit
  split
  · rename_i h
    exact .one h.2
  · rename_i hnot
    split
    · rename_i hlt
      by_cases hzero : unit.toNat = 0
      · have hnul : unit = 0 := UInt16.toNat_inj.mp hzero
        rw [hnul]
        exact .nul
      · exact .two (by omega) hlt
    · rename_i hge
      exact .three (by omega)

theorem UnitForm.eq {unit : UInt16} {bytes : Bytes} (h : UnitForm unit bytes) :
    bytes = encodeUnit unit ∨ unit = 0 ∧ bytes = [0] := by
  unfold encodeUnit
  cases h with
  | one h =>
    by_cases hzero : unit.toNat = 0
    · have hnul : unit = 0 := UInt16.toNat_inj.mp hzero
      subst hnul
      exact Or.inr ⟨rfl, rfl⟩
    · exact Or.inl (if_pos (by omega)).symm
  | nul => exact Or.inl rfl
  | two hlow hhigh => exact Or.inl (by rw [if_neg (by omega), if_pos hhigh])
  | three h => exact Or.inl (by rw [if_neg (by omega), if_neg (by omega)])

theorem UnitForm.unitsOnto_eq {unit : UInt16} {front : Bytes} (h : UnitForm unit front)
    (units : List UInt16) (rest : Bytes) :
    unitsOnto units (front ++ rest) = unitsOnto (unit :: units) rest := by
  rcases h.eq with rfl | ⟨rfl, rfl⟩
  · exact unitsOnto_encodeUnit unit units rest
  · exact @unitsOnto_group (.one 0) (show (0 : UInt8).toNat < 0x80 by decide) units rest

theorem Written.units_eq {written : List UInt16} {bytes : Bytes} (h : Written written bytes) :
    units bytes = written := by
  have honto (units : List UInt16) : unitsOnto units bytes = units.reverse ++ written := by
    induction h generalizing units with
    | nil => rw [unitsOnto, List.append_nil]
    | cons h _ ih =>
      rw [h.unitsOnto_eq, ih, List.reverse_cons, List.append_assoc, List.singleton_append]
  exact honto []

theorem Written.append {units others : List UInt16} {front rest : Bytes} (h : Written units front)
    (hs : Written others rest) : Written (units ++ others) (front ++ rest) := by
  induction h with
  | nil => exact hs
  | cons hunit _ ih =>
    rw [List.append_assoc]
    exact .cons hunit ih

theorem written_encode (text : String) : Written (Utf16.encode text) (encode text) := by
  rw [encode]
  induction Utf16.encode text with
  | nil => exact .nil
  | cons unit units ih => exact .cons (unitForm_encodeUnit unit) ih

theorem written_utf8EncodeChar {c : Char} (h : c.toNat < 0x10000) :
    Written (Utf16.encodeChar c) (String.utf8EncodeChar c) := by
  have hunit : (UInt16.ofNat c.toNat).toNat = c.toNat := toNat_unit h
  have hval : c.val.toNat = c.toNat := rfl
  have hform : UnitForm (UInt16.ofNat c.toNat) (String.utf8EncodeChar c) := by
    by_cases hone : c.toNat < 0x80
    · have hbytes : String.utf8EncodeChar c = [UInt8.ofNat (UInt16.ofNat c.toNat).toNat] := by
        rw [hunit]
        exact if_pos (Nat.le_of_lt_succ hone)
      rw [hbytes]
      exact .one (by omega)
    by_cases htwo : c.toNat < 0x800
    · have hlead : c.toNat / 64 % 32 + 192 = 0xC0 + c.toNat / 0x40 := by omega
      have hbytes : String.utf8EncodeChar c =
          [UInt8.ofNat (c.toNat / 64 % 32 + 192), UInt8.ofNat (c.toNat % 64 + 128)] :=
        (if_neg (by omega)).trans (if_pos (Nat.le_of_lt_succ htwo))
      have hwritten := @UnitForm.two (UInt16.ofNat c.toNat) (by omega) (by omega)
      rw [hunit] at hwritten
      rw [hbytes, hlead, Nat.add_comm (c.toNat % 64)]
      exact hwritten
    · have hlead : c.toNat / 4096 % 16 + 224 = 0xE0 + c.toNat / 0x1000 := by omega
      have hbytes : String.utf8EncodeChar c =
          [UInt8.ofNat (c.toNat / 4096 % 16 + 224), UInt8.ofNat (c.toNat / 64 % 64 + 128),
            UInt8.ofNat (c.toNat % 64 + 128)] :=
        (if_neg (by omega)).trans ((if_neg (by omega)).trans (if_pos (Nat.le_of_lt_succ h)))
      have hwritten := @UnitForm.three (UInt16.ofNat c.toNat) (by omega)
      rw [hunit] at hwritten
      rw [hbytes, hlead, Nat.add_comm (c.toNat / 64 % 64), Nat.add_comm (c.toNat % 64)]
      exact hwritten
  rw [Utf16.encodeChar, if_pos h]
  have hwritten := Written.cons hform .nil
  rwa [List.append_nil] at hwritten

/-- Without supplementary characters, UTF-8 is a form of modified UTF-8. -/
theorem written_utf8Bytes {text : String} (h : ∀ c ∈ text.toList, c.toNat < 0x10000) :
    Written (Utf16.encode text) (utf8Bytes text) := by
  rw [Utf8Order.utf8Bytes_eq, Utf16.encode]
  generalize text.toList = chars at h
  induction chars with
  | nil => exact .nil
  | cons c chars ih =>
    rw [List.flatMap_cons, List.flatMap_cons]
    exact (written_utf8EncodeChar (h c List.mem_cons_self)).append
      (ih fun d hd => h d (List.mem_cons_of_mem _ hd))

theorem decode_of_written {text : String} {bytes : Bytes} (h : Written (Utf16.encode text) bytes) :
    decode bytes = text := by
  rw [decode, h.units_eq, Utf16.decode_encode]

/-- What was written unit by unit is read as what the units say, so that a text is read back from its
modified UTF-8 and, without supplementary characters, from its UTF-8. A scan of any bytes asks for no byte
behind their end and gives the complete units, with one U+FFFD for each byte that starts none. -/
theorem decode_written :
    (∀ units bytes, Written units bytes →
      ∀ chars, Utf16.Reads units chars ↔ chars = (decode bytes).toList) ∧
    (∀ text bytes, Written (Utf16.encode text) bytes → decode bytes = text) ∧
    (∀ text, decode (encode text) = text) ∧
    (∀ text : String, (∀ c ∈ text.toList, c.toNat < 0x10000) → decode (utf8Bytes text) = text) ∧
    ∀ bytes, scanFrom? bytes 0 = some (units bytes) ∧
      (∀ scanned, Scanned bytes scanned ↔ scanned = units bytes) ∧
      ∀ chars, Utf16.Reads (units bytes) chars ↔ chars = (decode bytes).toList := by
  refine ⟨?_, fun _ _ => decode_of_written, fun text => decode_of_written (written_encode text),
    fun _ h => decode_of_written (written_utf8Bytes h), ?_⟩
  · intro units bytes h chars
    rw [decode, h.units_eq]
    exact Utf16.reads_iff
  · intro bytes
    exact ⟨scanFrom?_eq bytes 0, fun _ => scanned_iff, fun _ => Utf16.reads_iff⟩

/-- NUL in both of its forms, a pair of surrogates and a surrogate without a partner. -/
theorem decode_written_lone :
    decode [0x61, 0xC0, 0x80, 0x00, 0xED, 0xA0, 0xBD, 0xED, 0xB8, 0x80, 0xED, 0xA0, 0xBD] =
      "a\x00\x00😀\uFFFD" ∧
    decode (utf8Bytes "\u00E9\u20AC") = "\u00E9\u20AC" := by
  obtain ⟨hunits, -, -, hplain, -⟩ := decode_written
  have hform : Written [0x61, 0, 0, 0xD83D, 0xDE00, 0xD83D]
      [0x61, 0xC0, 0x80, 0x00, 0xED, 0xA0, 0xBD, 0xED, 0xB8, 0x80, 0xED, 0xA0, 0xBD] :=
    .cons (.one (by decide)) (.cons .nul (.cons (.one (by decide)) (.cons (.three (by decide))
      (.cons (.three (by decide)) (.cons (.three (by decide)) .nil)))))
  have hreads : Utf16.Reads [0x61, 0, 0, 0xD83D, 0xDE00, 0xD83D]
      ['a', '\x00', '\x00', '😀', '\uFFFD'] :=
    .char 'a' (.char '\x00' (.char '\x00' (.char '😀' (.lone (by decide) (by simp) .nil))))
  have hsmall : ∀ c ∈ ['\u00E9', '\u20AC'], c.toNat < 0x10000 :=
    List.forall_mem_cons.mpr ⟨by decide, List.forall_mem_singleton.mpr (by decide)⟩
  refine ⟨?_, hplain _ hsmall⟩
  rw [← String.toList_inj, ← (hunits _ _ hform _).mp hreads]
  rfl

end ModifiedUtf8

end ClassReport
