import ClassReport.Proofs.ClassFileRoundTrip

/-!
# The numbers of constants

A constant has the number of its first slot; slot 0 and the second slots of two-slot constants are nobody's
(`Vacant`). Reading a pool succeeds exactly where the bytes are constants that take all the slots that
are declared, and the table then answers an index by the constant that has that number
(`read_numbered`). What was read is taken apart a constant at a time (`readSlots_eq_ok`, then
`fill_eq_ok`); the numbers of two constants of a pool are as far apart as the first of them is wide
(`slotCount_of_split`).
-/

namespace ClassReport.Layout
open Reader FailingState

/-! ### What a constant was read from -/

theorem exists_index {piece : Bytes} (h : piece.length = 2) :
    ∃ n : UInt16, piece = bigEndian 2 n.toNat := by
  obtain ⟨n, hn, rfl⟩ := exists_bigEndian h
  exact ⟨UInt16.ofNat n, by rw [UInt16.toNat_ofNat_of_lt' hn]⟩

theorem exists_word {piece : Bytes} (h : piece.length = 4) :
    ∃ n : UInt32, piece = bigEndian 4 n.toNat := by
  obtain ⟨n, hn, rfl⟩ := exists_bigEndian h
  exact ⟨UInt32.ofNat n, by rw [UInt32.toNat_ofNat_of_lt' hn]⟩

theorem exists_longWord {piece : Bytes} (h : piece.length = 8) :
    ∃ n : UInt64, piece = bigEndian 8 n.toNat := by
  obtain ⟨n, hn, rfl⟩ := exists_bigEndian h
  exact ⟨UInt64.ofNat n, by rw [UInt64.toNat_ofNat_of_lt' hn]⟩

theorem exists_indices {piece : Bytes} (h : piece.length = 4) :
    ∃ a b : UInt16, piece = bigEndian 2 a.toNat ++ bigEndian 2 b.toNat := by
  have hfirst : (piece.take 2).length = 2 := by rw [List.length_take, h]; rfl
  have hsecond : (piece.drop 2).length = 2 := by rw [List.length_drop, h]
  obtain ⟨a, ha⟩ := exists_index hfirst
  obtain ⟨b, hb⟩ := exists_index hsecond
  exact ⟨a, b, by rw [← ha, ← hb, List.take_append_drop]⟩

namespace Constant

/-- The tags of each layout. -/
theorem tag_cases {tag : UInt8} {layout : ConstantLayout}
    (h : ConstantLayout.ofTag? tag = some layout) :
    match layout with
    | .text => tag = 1
    | .className => tag = 7
    | .twoSlots => tag = 5 ∨ tag = 6
    | .fixed length =>
      (length = 3 ∧ tag = 15) ∨ (length = 2 ∧ (tag = 8 ∨ tag = 16 ∨ tag = 19 ∨ tag = 20)) ∨
        (length = 4 ∧ ((tag = 3 ∨ tag = 4) ∨
          tag = 9 ∨ tag = 10 ∨ tag = 11 ∨ tag = 12 ∨ tag = 17 ∨ tag = 18)) := by
  unfold ConstantLayout.ofTag? at h
  simp only [← UInt8.toNat_inj]
  split at h
  all_goals
    cases h
    try simp [*]

/-- Bytes of the length that a tag asks for are the body of a constant with that tag. -/
theorem exists_of_fixed {tag : UInt8} {length : Nat}
    (h : ConstantLayout.ofTag? tag = some (.fixed length)) {body : Bytes}
    (hbody : body.length = length) :
    ∃ c : Constant, c.Fits ∧ tag :: body = c.encode ∧ c.slot = .other ∧ c.second? = none := by
  rcases tag_cases h with ⟨rfl, rfl⟩ | ⟨rfl, htag⟩ | ⟨rfl, hword | hpair⟩
  · obtain ⟨kind, piece, rfl⟩ := List.exists_cons_of_length_eq_add_one hbody
    obtain ⟨n, rfl⟩ := exists_index (Nat.succ.inj hbody)
    exact ⟨.methodHandle kind n, trivial, rfl, rfl, rfl⟩
  · obtain ⟨n, rfl⟩ := exists_index hbody
    rcases htag with rfl | rfl | rfl | rfl
    · exact ⟨.string n, trivial, rfl, rfl, rfl⟩
    · exact ⟨.methodType n, trivial, rfl, rfl, rfl⟩
    · exact ⟨.moduleRef n, trivial, rfl, rfl, rfl⟩
    · exact ⟨.packageRef n, trivial, rfl, rfl, rfl⟩
  · obtain ⟨n, rfl⟩ := exists_word hbody
    rcases hword with rfl | rfl
    · exact ⟨.integer n, trivial, rfl, rfl, rfl⟩
    · exact ⟨.float n, trivial, rfl, rfl, rfl⟩
  · obtain ⟨a, b, rfl⟩ := exists_indices hbody
    rcases hpair with rfl | rfl | rfl | rfl | rfl | rfl
    · exact ⟨.fieldRef a b, trivial, rfl, rfl, rfl⟩
    · exact ⟨.methodRef a b, trivial, rfl, rfl, rfl⟩
    · exact ⟨.interfaceMethodRef a b, trivial, rfl, rfl, rfl⟩
    · exact ⟨.nameAndType a b, trivial, rfl, rfl, rfl⟩
    · exact ⟨.dynamic a b, trivial, rfl, rfl, rfl⟩
    · exact ⟨.invokeDynamic a b, trivial, rfl, rfl, rfl⟩

theorem exists_of_twoSlots {tag : UInt8} (h : ConstantLayout.ofTag? tag = some .twoSlots)
    {body : Bytes} (hbody : body.length = 8) :
    ∃ c : Constant, c.Fits ∧ tag :: body = c.encode ∧ c.slot = .other ∧ c.second? = some .unusable := by
  obtain ⟨n, rfl⟩ := exists_longWord hbody
  rcases tag_cases h with rfl | rfl
  · exact ⟨.long n, trivial, rfl, rfl, rfl⟩
  · exact ⟨.double n, trivial, rfl, rfl, rfl⟩

theorem width_of_second? {c : Constant} (h : c.second? = none) : c.width = 1 := by
  rw [← c.length_slots, slots, h]
  rfl

theorem width_of_second {c : Constant} {second : ClassReport.Constant} (h : c.second? = some second) :
    c.width = 2 := by
  rw [← c.length_slots, slots, h]
  rfl

/-- What fills a slot, or two, was written as a constant that has room there. -/
theorem readSlots_eq_ok {count index : Nat} {bs rest : Bytes}
    {got : ClassReport.Constant × Option ClassReport.Constant} (hindex : index < count)
    (h : ClassReport.Constant.readSlots count index bs = .ok (got, rest)) :
    ∃ c : Constant, c.Fits ∧ bs = c.encode ++ rest ∧ got = (c.slot, c.second?) ∧
      index + c.width ≤ count := by
  obtain ⟨tag, left, htag, hbody⟩ := bind_eq_ok_iff.mp h
  obtain rfl := u1_eq_ok_iff.mp htag
  cases hlayout : ConstantLayout.ofTag? tag with
  | none =>
    simp only [hlayout] at hbody
    cases hbody
  | some layout =>
    simp only [hlayout] at hbody
    cases layout with
    | text =>
      obtain ⟨length, middle, hlength, hpiece⟩ := bind_eq_ok_iff.mp hbody
      obtain ⟨bytes, behind, hbytes, hdone⟩ := bind_eq_ok_iff.mp hpiece
      obtain ⟨hcount, rfl⟩ := slice_eq_ok_iff.mp hbytes
      obtain rfl := u2_eq_ok_iff.mp hlength
      have hone : tag = 1 := tag_cases hlayout
      subst hone
      cases hdone
      have hfits : (Constant.utf8 bytes).Fits := by
        show bytes.length < 0x10000
        rw [hcount]
        exact length.toNat_lt
      refine ⟨.utf8 bytes, hfits, ?_, rfl, hindex⟩
      rw [← hcount]
      simp [encode, tag, body]
    | className =>
      obtain ⟨name, behind, hname, hdone⟩ := bind_eq_ok_iff.mp hbody
      obtain rfl := u2_eq_ok_iff.mp hname
      have hseven : tag = 7 := tag_cases hlayout
      subst hseven
      cases hdone
      exact ⟨.classRef name, trivial, rfl, rfl, hindex⟩
    | fixed length =>
      obtain ⟨piece, behind, hpiece, hdone⟩ := bind_eq_ok_iff.mp hbody
      obtain ⟨hlength, rfl⟩ := slice_eq_ok_iff.mp hpiece
      obtain ⟨c, hfits, hencode, hslot, hsecond⟩ := exists_of_fixed hlayout hlength
      cases hdone
      refine ⟨c, hfits, by rw [← hencode, List.cons_append], by rw [hslot, hsecond], ?_⟩
      rw [width_of_second? hsecond]
      exact hindex
    | twoSlots =>
      by_cases hroom : index + 1 < count
      · simp only [if_pos hroom] at hbody
        obtain ⟨piece, behind, hpiece, hdone⟩ := bind_eq_ok_iff.mp hbody
        obtain ⟨hlength, rfl⟩ := slice_eq_ok_iff.mp hpiece
        obtain ⟨c, hfits, hencode, hslot, hsecond⟩ := exists_of_twoSlots hlayout hlength
        cases hdone
        refine ⟨c, hfits, by rw [← hencode, List.cons_append], by rw [hslot, hsecond], ?_⟩
        rw [width_of_second hsecond]
        exact hroom
      · simp only [if_neg hroom] at hbody
        cases hbody

end Constant

/-! ### What a table was filled from -/

theorem slotCount_append (front cs : List Constant) :
    slotCount (front ++ cs) = slotCount front + slotCount cs := by
  induction front with
  | nil => simp [slotCount]
  | cons c front ih => rw [List.cons_append, slotCount_cons, slotCount_cons, ih, Nat.add_assoc]

theorem size_append_slots (slots : Array ClassReport.Constant) (c : Constant) :
    (slots ++ c.slots.toArray).size = slots.size + c.width := by
  simp [c.length_slots]

/-- The slots that one constant fills, and then the others. -/
theorem fill_cons {count : Nat} {slots : Array ClassReport.Constant} (hroom : slots.size < count)
    {bs rest : Bytes} {c : Constant}
    (h : ClassReport.Constant.readSlots count slots.size bs = .ok ((c.slot, c.second?), rest)) :
    ConstantPool.fill count slots bs = ConstantPool.fill count (slots ++ c.slots.toArray) rest := by
  rw [ConstantPool.fill, if_pos hroom, bind_apply, h]
  cases hsecond : c.second? with
  | none => simp [Constant.slots, hsecond]
  | some second =>
    have hpush : (slots.push c.slot).push second = slots ++ c.slots.toArray := by
      rw [← Array.toList_inj]
      simp [Constant.slots, hsecond]
    rw [← hpush]

/-- A table is filled from constants that take the slots that it lacks. -/
theorem fill_eq_ok {count : Nat} {slots filled : Array ClassReport.Constant} {bs rest : Bytes}
    (h : ConstantPool.fill count slots bs = .ok (filled, rest)) :
    ∃ cs : List Constant, (∀ c ∈ cs, c.Fits) ∧ bs = cs.flatMap Constant.encode ++ rest ∧
      filled = slots ++ (cs.flatMap Constant.slots).toArray ∧
      slots.size + slotCount cs = max count slots.size := by
  induction hfree : count - slots.size using Nat.strongRecOn generalizing slots bs with
  | _ free ih =>
    by_cases hroom : slots.size < count
    · cases hfirst : ClassReport.Constant.readSlots count slots.size bs with
      | error e =>
        rw [ConstantPool.fill, if_pos hroom, bind_apply, hfirst] at h
        cases h
      | ok got =>
        obtain ⟨filling, left⟩ := got
        obtain ⟨c, hfits, rfl, rfl, hwidth⟩ := Constant.readSlots_eq_ok hroom hfirst
        rw [fill_cons hroom hfirst] at h
        have hpos := c.width_pos
        have hsize := size_append_slots slots c
        obtain ⟨cs, hrest, hbytes, hfilled, hcount⟩ := ih _ (by omega) h rfl
        rw [hsize] at hcount
        refine ⟨c :: cs, List.forall_mem_cons.mpr ⟨hfits, hrest⟩, ?_, ?_, ?_⟩
        · rw [hbytes, List.flatMap_cons, List.append_assoc]
        · rw [hfilled, List.flatMap_cons]
          simp
        · rw [slotCount_cons]
          omega
    · rw [ConstantPool.fill, if_neg hroom] at h
      cases h
      refine ⟨[], by simp, rfl, by simp, ?_⟩
      simp only [slotCount]
      omega

/-- As long as constants have room, they are read and the others are still to come. -/
theorem fill_append {count : Nat} (cs : List Constant) (hcs : ∀ c ∈ cs, c.Fits)
    {slots : Array ClassReport.Constant} (hroom : slots.size + slotCount cs ≤ count) (more : Bytes) :
    ConstantPool.fill count slots (cs.flatMap Constant.encode ++ more) =
      ConstantPool.fill count (slots ++ (cs.flatMap Constant.slots).toArray) more := by
  induction cs generalizing slots with
  | nil => simp
  | cons c cs ih =>
    obtain ⟨hc, hrest⟩ := List.forall_mem_cons.mp hcs
    rw [slotCount_cons] at hroom
    have hpos := c.width_pos
    have hsize := size_append_slots slots c
    have hread := reads_readSlots c hc (show slots.size + c.width ≤ count by omega)
      (cs.flatMap Constant.encode ++ more)
    rw [List.flatMap_cons, List.append_assoc, fill_cons (by omega) hread,
      ih hrest (by rw [hsize]; omega), List.flatMap_cons]
    simp

/-- A two-slot constant whose second slot would stand behind the pool is refused by its tag alone. -/
theorem fill_wide {count : Nat} {slots : Array ClassReport.Constant} (hlast : slots.size + 1 = count)
    {wide : Constant} (hwide : wide.width = 2) (more : Bytes) :
    ConstantPool.fill count slots (wide.tag :: more) =
      .error (.invalidConstantIndex (UInt16.ofNat slots.size)) := by
  have hlayout : ConstantLayout.ofTag? wide.tag = some .twoSlots := by
    cases wide
    case long | double => rfl
    all_goals cases hwide
  have htag : u1 (wide.tag :: more) = .ok (wide.tag, more) := rfl
  have hnone : ¬ slots.size + 1 < count := by omega
  have hread : ClassReport.Constant.readSlots count slots.size (wide.tag :: more) =
      .error (.invalidConstantIndex (UInt16.ofNat slots.size)) := by
    rw [ClassReport.Constant.readSlots, bind_apply, htag]
    simp only [hlayout, if_neg hnone]
    rfl
  rw [ConstantPool.fill, if_pos (by omega), bind_apply, hread]

/-! ### Numbers -/

/-- No constant has that number: it is 0, or of the second slot of a constant, or behind the pool. -/
def Vacant (pool : List Constant) (index : UInt16) : Prop :=
  index = 0 ∨
    (∃ (wide : Constant) (first : UInt16), wide.width = 2 ∧ Stands pool first wide ∧
      index.toNat = first.toNat + 1) ∨
    slotCount pool < index.toNat

/-- Of two places in a pool one is the other, or a constant's width at least lies between them. -/
theorem slotCount_of_split {front front' back back' : List Constant} {c d : Constant}
    (h : front ++ c :: back = front' ++ d :: back') :
    (front = front' ∧ c = d) ∨ slotCount front + c.width ≤ slotCount front' ∨
      slotCount front' + d.width ≤ slotCount front := by
  rcases List.append_eq_append_iff.mp h with ⟨between, rfl, hc⟩ | ⟨between, rfl, hd⟩
  · cases between with
    | nil =>
      cases hc
      exact .inl ⟨(List.append_nil _).symm, rfl⟩
    | cons b between =>
      cases hc
      refine .inr (.inl ?_)
      rw [slotCount_append, slotCount_cons]
      omega
  · cases between with
    | nil =>
      cases hd
      exact .inl ⟨List.append_nil _, rfl⟩
    | cons b between =>
      cases hd
      refine .inr (.inr ?_)
      rw [slotCount_append, slotCount_cons]
      omega

/-- Every slot is the first or the second of a constant. -/
theorem exists_at_slot {pool : List Constant} {slot : Nat} (h : slot < slotCount pool) :
    ∃ front c back, pool = front ++ c :: back ∧
      (slot = slotCount front ∨ (c.width = 2 ∧ slot = slotCount front + 1)) := by
  induction pool generalizing slot with
  | nil => exact absurd h (Nat.not_lt_zero _)
  | cons c pool ih =>
    rw [slotCount_cons] at h
    have hwidth : c.width = 1 ∨ c.width = 2 := by cases c <;> simp [Constant.width]
    by_cases hlater : c.width ≤ slot
    · obtain ⟨front, d, back, rfl, hslot⟩ := ih (show slot - c.width < slotCount pool by omega)
      refine ⟨c :: front, d, back, rfl, ?_⟩
      rw [slotCount_cons]
      omega
    · refine ⟨[], c, pool, rfl, ?_⟩
      simp only [slotCount]
      omega

variable {pool : List Constant} {index : UInt16}

theorem Stands.eq {c d : Constant} (hc : Stands pool index c) (hd : Stands pool index d) : c = d := by
  obtain ⟨front, back, rfl, hindex⟩ := hc
  obtain ⟨front', back', hsplit, hindex'⟩ := hd
  have hpos := c.width_pos
  have hpos' := d.width_pos
  rcases slotCount_of_split hsplit with ⟨-, h⟩ | h | h
  · exact h
  · omega
  · omega

theorem Stands.not_vacant {c : Constant} (hc : Stands pool index c) : ¬ Vacant pool index := by
  obtain ⟨front, back, rfl, hindex⟩ := hc
  have hpos := c.width_pos
  rintro (rfl | ⟨wide, first, hwide, ⟨front', back', hsplit, hfirst⟩, hnext⟩ | hbehind)
  · simp only [UInt16.toNat_zero] at hindex
    omega
  · rcases slotCount_of_split hsplit with ⟨rfl, rfl⟩ | h | h
    · omega
    · omega
    · omega
  · rw [slotCount_append, slotCount_cons] at hbehind
    omega

theorem exists_stands_of_not_vacant (h : ¬ Vacant pool index) : ∃ c, Stands pool index c := by
  simp only [Vacant, not_or] at h
  obtain ⟨hzero, hsecond, hbehind⟩ := h
  have hpos : index.toNat ≠ 0 := fun h0 => hzero (UInt16.toNat_inj.mp h0)
  obtain ⟨front, c, back, rfl, hslot⟩ :=
    exists_at_slot (show index.toNat - 1 < slotCount pool by omega)
  rcases hslot with hslot | ⟨hwide, hslot⟩
  · exact ⟨c, front, back, rfl, by omega⟩
  · have hlt := index.toNat_lt
    have hfirst : (UInt16.ofNat (1 + slotCount front)).toNat = 1 + slotCount front :=
      UInt16.toNat_ofNat_of_lt' (show _ < 65536 by omega)
    exact absurd ⟨c, UInt16.ofNat (1 + slotCount front), hwide, ⟨front, back, rfl, hfirst⟩, by omega⟩
      hsecond

/-- The numbers that no constant has are the vacant ones. -/
theorem vacant_iff : Vacant pool index ↔ ∀ c, ¬ Stands pool index c := by
  constructor
  · intro h c hc
    exact hc.not_vacant h
  · intro h
    by_cases hvacant : Vacant pool index
    · exact hvacant
    · obtain ⟨c, hc⟩ := exists_stands_of_not_vacant hvacant
      exact absurd hc (h c)

/-! ### Looking up -/

theorem size_table (pool : List Constant) : (table pool).slots.size = slotCount pool + 1 := by
  rw [table, List.size_toArray, List.length_cons, length_flatMap_slots]

/-- A vacant slot of the table holds nothing, if it is there. -/
theorem slot_of_vacant (h : Vacant pool index) :
    (table pool).slots[index.toNat]? = some .unusable ∨ (table pool).slots[index.toNat]? = none := by
  rcases h with rfl | ⟨wide, first, hwide, ⟨front, back, rfl, hfirst⟩, hnext⟩ | hbehind
  · exact .inl rfl
  · have hsecond : wide.second? = some .unusable := by
      cases wide
      case long | double => rfl
      all_goals cases hwide
    have hsplit : (front ++ wide :: back).flatMap Constant.slots =
        front.flatMap Constant.slots ++ (wide.slot :: .unusable :: back.flatMap Constant.slots) := by
      simp [Constant.slots, hsecond]
    have hindex : index.toNat = (front.flatMap Constant.slots).length + 1 + 1 := by
      rw [length_flatMap_slots]
      omega
    left
    rw [table, List.getElem?_toArray, hindex, List.getElem?_cons_succ, hsplit,
      List.getElem?_append_right (Nat.le_add_right _ 1), Nat.add_sub_cancel_left]
    rfl
  · right
    have hsize := size_table pool
    exact Array.getElem?_eq_none (by omega)

theorem utf8_of_stands {c : Constant} (h : Stands pool index c) :
    (table pool).utf8 index =
      match c with
      | .utf8 bytes => .ok (ModifiedUtf8.decode bytes)
      | _ => .error (.invalidConstantIndex index) := by
  rw [ConstantPool.utf8, slot_of_stands h]
  cases c <;> rfl

theorem className_of_stands {c : Constant} (h : Stands pool index c) :
    (table pool).className index =
      match c with
      | .classRef name => (table pool).utf8 name
      | _ => .error (.invalidConstantIndex index) := by
  rw [ConstantPool.className, slot_of_stands h]
  cases c <;> rfl

theorem lookup_of_vacant (h : Vacant pool index) :
    (table pool).utf8 index = .error (.invalidConstantIndex index) ∧
      (table pool).className index = .error (.invalidConstantIndex index) := by
  rw [ConstantPool.utf8, ConstantPool.className]
  rcases slot_of_vacant h with hslot | hslot
  · rw [hslot]
    exact ⟨rfl, rfl⟩
  · rw [hslot]
    exact ⟨rfl, rfl⟩

/-- A number that is not a text's has no text: it is vacant, or that of a constant of another kind. -/
theorem utf8_of_not_stands (h : ∀ bytes, ¬ Stands pool index (.utf8 bytes)) :
    (table pool).utf8 index = .error (.invalidConstantIndex index) := by
  by_cases hvacant : Vacant pool index
  · exact (lookup_of_vacant hvacant).1
  · obtain ⟨c, hc⟩ := exists_stands_of_not_vacant hvacant
    rw [utf8_of_stands hc]
    cases c
    case utf8 bytes => exact absurd hc (h bytes)
    all_goals rfl

theorem className_of_not_stands (h : ∀ name, ¬ Stands pool index (.classRef name)) :
    (table pool).className index = .error (.invalidConstantIndex index) := by
  by_cases hvacant : Vacant pool index
  · exact (lookup_of_vacant hvacant).2
  · obtain ⟨c, hc⟩ := exists_stands_of_not_vacant hvacant
    rw [className_of_stands hc]
    cases c
    case classRef name => exact absurd hc (h name)
    all_goals rfl

/-- How a table answers an index, by the constant that has that number. -/
structure Answers (kept : ConstantPool) (pool : List Constant) : Prop where
  utf8_iff : ∀ index text, kept.utf8 index = .ok text ↔
    ∃ bytes, Stands pool index (.utf8 bytes) ∧ ModifiedUtf8.decode bytes = text
  className_iff : ∀ index text, kept.className index = .ok text ↔
    ∃ name, Stands pool index (.classRef name) ∧ kept.utf8 name = .ok text
  utf8_other : ∀ index, (∀ bytes, ¬ Stands pool index (.utf8 bytes)) →
    kept.utf8 index = .error (.invalidConstantIndex index)
  className_other : ∀ index, (∀ name, ¬ Stands pool index (.classRef name)) →
    kept.className index = .error (.invalidConstantIndex index)
  /-- A class without a name is refused by the number of the name. -/
  className_unnamed : ∀ index name, Stands pool index (.classRef name) →
    (∀ text, kept.utf8 name ≠ .ok text) → kept.className index = .error (.invalidConstantIndex name)
  vacant : ∀ index, Vacant pool index →
    kept.utf8 index = .error (.invalidConstantIndex index) ∧
      kept.className index = .error (.invalidConstantIndex index)
  /-- A number is vacant or that of one constant. -/
  numbered : ∀ index, (Vacant pool index ∧ ∀ c, ¬ Stands pool index c) ∨
    ∃ c, Stands pool index c ∧ ∀ d, Stands pool index d → d = c

theorem answers_table (pool : List Constant) : Answers (table pool) pool where
  utf8_iff index text := by
    constructor
    · intro h
      by_cases htext : ∃ bytes, Stands pool index (.utf8 bytes)
      · obtain ⟨bytes, hbytes⟩ := htext
        rw [utf8_of_stands hbytes] at h
        exact ⟨bytes, hbytes, Except.ok.inj h⟩
      · rw [utf8_of_not_stands (not_exists.mp htext)] at h
        cases h
    · rintro ⟨bytes, hbytes, rfl⟩
      exact utf8_of_stands hbytes
  className_iff index text := by
    constructor
    · intro h
      by_cases hclass : ∃ name, Stands pool index (.classRef name)
      · obtain ⟨name, hname⟩ := hclass
        rw [className_of_stands hname] at h
        exact ⟨name, hname, h⟩
      · rw [className_of_not_stands (not_exists.mp hclass)] at h
        cases h
    · rintro ⟨name, hname, htext⟩
      exact (className_of_stands hname).trans htext
  utf8_other _ h := utf8_of_not_stands h
  className_other _ h := className_of_not_stands h
  className_unnamed index name hc h := by
    rw [className_of_stands hc]
    exact ConstantPool.utf8_eq_error h
  vacant _ h := lookup_of_vacant h
  numbered index := by
    by_cases hvacant : Vacant pool index
    · exact .inl ⟨hvacant, vacant_iff.mp hvacant⟩
    · obtain ⟨c, hc⟩ := exists_stands_of_not_vacant hvacant
      exact .inr ⟨c, hc, fun d hd => hd.eq hc⟩

/-! ### Pools -/

/-- The constants take the slots that are declared, from slot 1 on. -/
structure Fills (count : Nat) (pool : List Constant) : Prop where
  count_lt : count < 0x10000
  fits : ∀ c ∈ pool, c.Fits
  slotCount_eq : slotCount pool = max count 1 - 1

/-- A count of slots, and constants, which need not take so many. -/
def encodePool (count : Nat) (pool : List Constant) : Bytes :=
  bigEndian 2 count ++ pool.flatMap Constant.encode

/-- What is read once the count is. -/
theorem read_counted {count : Nat} (h : count < 0x10000) (bs : Bytes) :
    ConstantPool.read (bigEndian 2 count ++ bs) =
      (ConstantPool.fill count #[.unusable] >>= fun slots => pure ⟨slots⟩ : Reader ConstantPool) bs := by
  have hcount : (UInt16.ofNat count).toNat = count := UInt16.toNat_ofNat_of_lt' h
  have hu := reads_u2 (UInt16.ofNat count) bs
  rw [hcount] at hu
  rw [ConstantPool.read, bind_apply, hu]
  simp only [hcount]

theorem read_eq_ok {bs rest : Bytes} {kept : ConstantPool}
    (h : ConstantPool.read bs = .ok (kept, rest)) :
    ∃ count pool, Fills count pool ∧ bs = encodePool count pool ++ rest ∧ kept = table pool := by
  obtain ⟨count, left, hcount, hfill⟩ := bind_eq_ok_iff.mp h
  obtain rfl := u2_eq_ok_iff.mp hcount
  obtain ⟨slots, behind, hslots, hdone⟩ := bind_eq_ok_iff.mp hfill
  obtain ⟨pool, hfits, rfl, rfl, hsize⟩ := fill_eq_ok hslots
  cases hdone
  have hone : (#[ClassReport.Constant.unusable] : Array ClassReport.Constant).size = 1 := rfl
  rw [hone] at hsize
  refine ⟨count.toNat, pool, ⟨count.toNat_lt, hfits, by omega⟩, ?_, ?_⟩
  · rw [encodePool, List.append_assoc]
  · simp [table]

theorem read_of_fills {count : Nat} {pool : List Constant} (h : Fills count pool) (rest : Bytes) :
    ConstantPool.read (encodePool count pool ++ rest) = .ok (table pool, rest) := by
  rw [encodePool, List.append_assoc, read_counted h.count_lt, bind_apply]
  by_cases hempty : count = 0
  · have hnone : pool = [] := by
      have hslots := h.slotCount_eq
      cases pool with
      | nil => rfl
      | cons c pool =>
        have hpos := c.width_pos
        rw [slotCount_cons] at hslots
        omega
    subst hempty hnone
    rw [ConstantPool.fill]
    rfl
  · have hslots := h.slotCount_eq
    have hcount : count = 1 + slotCount pool := by omega
    have hslots : #[ClassReport.Constant.unusable] ++ (pool.flatMap Constant.slots).toArray =
        (table pool).slots := by
      simp [table]
    rw [reads_fill pool h.fits count #[.unusable] hcount rest, hslots]
    rfl

/-- A pool is read exactly where a count and constants stand that take the slots that it declares, and
the table has so many slots and answers by the numbers of these constants. A two-slot constant that
starts in the last slot is refused by the number of that slot, whatever follows its tag. -/
theorem read_numbered :
    (∀ bs rest kept, ConstantPool.read bs = .ok (kept, rest) →
      ∃ count pool, Fills count pool ∧ bs = encodePool count pool ++ rest ∧
        kept.slots.size = max count 1 ∧ Answers kept pool) ∧
    (∀ count pool rest, Fills count pool →
      ∃ kept, ConstantPool.read (encodePool count pool ++ rest) = .ok (kept, rest) ∧
        kept.slots.size = max count 1 ∧ Answers kept pool) ∧
    ∀ (count : Nat) (pool : List Constant) (wide : Constant) (more : Bytes), count < 0x10000 →
      (∀ c ∈ pool, c.Fits) → wide.width = 2 → slotCount pool + 2 = count →
      ∃ index : UInt16, index.toNat = count - 1 ∧
        ConstantPool.read (encodePool count pool ++ wide.tag :: more) =
          .error (.invalidConstantIndex index) := by
  have hsize {count : Nat} {pool : List Constant} (h : Fills count pool) :
      (table pool).slots.size = max count 1 := by
    have hslots := h.slotCount_eq
    rw [size_table]
    omega
  refine ⟨?_, ?_, ?_⟩
  · intro bs rest kept h
    obtain ⟨count, pool, hfills, hbytes, rfl⟩ := read_eq_ok h
    exact ⟨count, pool, hfills, hbytes, hsize hfills, answers_table pool⟩
  · intro count pool rest h
    exact ⟨table pool, read_of_fills h rest, hsize h, answers_table pool⟩
  · intro count pool wide more hlt hfits hwide hcount
    have hone : (#[ClassReport.Constant.unusable] : Array ClassReport.Constant).size = 1 := rfl
    have hslots : (#[ClassReport.Constant.unusable] ++ (pool.flatMap Constant.slots).toArray).size =
        slotCount pool + 1 := by
      rw [Array.size_append, hone, List.size_toArray, length_flatMap_slots, Nat.add_comm]
    have hroom : (#[ClassReport.Constant.unusable] : Array _).size + slotCount pool ≤ count := by
      rw [hone]
      omega
    refine ⟨UInt16.ofNat (slotCount pool + 1), ?_, ?_⟩
    · rw [UInt16.toNat_ofNat_of_lt' (show _ < 65536 by omega)]
      omega
    · rw [encodePool, List.append_assoc, read_counted hlt, bind_apply, fill_append pool hfits hroom,
        fill_wide (by omega) hwide, hslots]

theorem fills_sample : Fills 9 ClassFile.samplePool where
  count_lt := by decide
  fits := by decide +kernel
  slotCount_eq := by decide

/-- A class whose name stands behind it and a number of two slots; and a lone number of two slots in a pool
of two slots, where there is only room for one. -/
theorem read_numbered_sample :
    Fills 9 ClassFile.samplePool ∧
    (∃ kept, ConstantPool.read (encodePool 9 ClassFile.samplePool ++ [0xCA]) = .ok (kept, [0xCA]) ∧
      kept.slots.size = 9 ∧ kept.className 1 = .ok "p/Sample" ∧
      kept.utf8 3 = .error (.invalidConstantIndex 3) ∧
      ∃ count pool, Fills count pool ∧
        encodePool 9 ClassFile.samplePool ++ [0xCA] = encodePool count pool ++ [0xCA] ∧
        kept.slots.size = max count 1 ∧ Answers kept pool) ∧
    ∃ index : UInt16, index.toNat = 1 ∧
      ConstantPool.read [0, 2, 5] = .error (.invalidConstantIndex index) := by
  obtain ⟨hread, hwritten, hwide⟩ := read_numbered
  obtain ⟨kept, hkept, hsize, hanswers⟩ := hwritten 9 ClassFile.samplePool [0xCA] fills_sample
  have hname : Stands ClassFile.samplePool 4 (.utf8 (ModifiedUtf8.encode "p/Sample")) :=
    ⟨ClassFile.samplePool.take 2, ClassFile.samplePool.drop 3, rfl, rfl⟩
  have hclass : Stands ClassFile.samplePool 1 (.classRef 4) :=
    ⟨[], ClassFile.samplePool.drop 1, rfl, rfl⟩
  have htext : kept.utf8 4 = .ok "p/Sample" :=
    (hanswers.utf8_iff 4 _).mpr ⟨_, hname, ModifiedUtf8.decode_encode _⟩
  have hsecond : Vacant ClassFile.samplePool 3 :=
    .inr (.inl ⟨.long 7, 2, rfl, ⟨ClassFile.samplePool.take 1, ClassFile.samplePool.drop 2, rfl, rfl⟩,
      rfl⟩)
  refine ⟨fills_sample, ⟨kept, hkept, hsize, ?_, (hanswers.vacant 3 hsecond).1, hread _ _ _ hkept⟩, ?_⟩
  · exact (hanswers.className_iff 1 _).mpr ⟨4, hclass, htext⟩
  · exact hwide 2 [] (.long 0) [] (by decide) (by simp) rfl rfl

end ClassReport.Layout
