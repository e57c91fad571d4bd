import ClassReport.Proofs.ClassFileLayout
import ClassReport.Proofs.UnicodeText

/-!
# Reading back a class file

Reading undoes laying out, for every tree whose counts and lengths fit, whatever follows the class
(`parse_encoded_class`). The proof goes up the tree: each part is read by the reader of its kind. A
value within an annotation is not read but stepped over, with a list of what is still to be stepped over;
the three kinds of node are therefore treated together (`skip_value`).
-/

namespace ClassReport.Layout
open Reader FailingState

/-! ### The pool -/

namespace Constant

/-- What the first slot of the constant holds. -/
def slot : Constant → ClassReport.Constant
  | utf8 bytes => .utf8 (ModifiedUtf8.decode bytes)
  | classRef name => .classRef name
  | _ => .other

/-- What the second slot of the constant holds, if it has one. -/
def second? : Constant → Option ClassReport.Constant
  | long _ | double _ => some .unusable
  | _ => none

def slots (c : Constant) : List ClassReport.Constant := c.slot :: c.second?.toList

theorem length_slots (c : Constant) : c.slots.length = c.width := by cases c <;> rfl

theorem width_pos (c : Constant) : 0 < c.width := by
  rw [← c.length_slots, slots, List.length_cons]
  exact Nat.succ_pos _

end Constant

theorem slotCount_cons (c : Constant) (cs : List Constant) :
    slotCount (c :: cs) = c.width + slotCount cs := rfl

theorem length_flatMap_slots (cs : List Constant) :
    (cs.flatMap Constant.slots).length = slotCount cs := by
  induction cs with
  | nil => rfl
  | cons c cs ih =>
    rw [List.flatMap_cons, List.length_append, c.length_slots, ih, slotCount_cons]

theorem reads_skip {α : Type} {n : Nat} {written : Bytes} (h : written.length = n) (value : α) :
    Reads (slice n >>= fun _ => pure value) written value := by
  subst h
  exact (reads_slice written).map fun _ => value

theorem reads_readSlots (c : Constant) (hc : c.Fits) {count index : Nat}
    (hroom : index + c.width ≤ count) :
    Reads (Constant.readSlots count index) c.encode (c.slot, c.second?) := by
  refine (reads_u1 c.tag).bind ?_
  cases c with
  | utf8 bytes =>
    exact reads_count2 (fun n => slice n >>= fun piece =>
      pure (ClassReport.Constant.utf8 (ModifiedUtf8.decode piece), none)) hc
      ((reads_slice bytes).map _)
  | classRef name =>
    exact (reads_u2 name).map _
  | long value | double value =>
    have hlt : index + 1 < count := hroom
    show Reads (if index + 1 < count then _ else _) _ _
    rw [if_pos hlt]
    exact reads_skip (length_bigEndian 8 _) _
  | integer value | float value => exact reads_skip (length_bigEndian 4 _) _
  | string index | methodType index | moduleRef index | packageRef index =>
    exact reads_skip (length_bigEndian 2 _) _
  | fieldRef a b | methodRef a b | interfaceMethodRef a b | nameAndType a b | dynamic a b
  | invokeDynamic a b =>
    have hlen : (bigEndian 2 a.toNat ++ bigEndian 2 b.toNat).length = 4 := rfl
    exact reads_skip hlen _
  | methodHandle kind reference =>
    have hlen : (kind :: bigEndian 2 reference.toNat).length = 3 := rfl
    exact reads_skip hlen _

theorem reads_fill (cs : List Constant) (hcs : ∀ c ∈ cs, c.Fits) (count : Nat)
    (slots : Array ClassReport.Constant) (hcount : count = slots.size + slotCount cs) :
    Reads (ConstantPool.fill count slots) (cs.flatMap Constant.encode)
      (slots ++ (cs.flatMap Constant.slots).toArray) := by
  induction cs generalizing slots with
  | nil =>
    have hfull : ¬ slots.size < count := by
      rw [hcount]
      exact Nat.lt_irrefl _
    rw [ConstantPool.fill, if_neg hfull]
    simpa using reads_pure slots
  | cons c cs ih =>
    rw [slotCount_cons] at hcount
    have hpos := c.width_pos
    have hlt : slots.size < count := by omega
    have hroom : slots.size + c.width ≤ count := by omega
    have hrest : ∀ d ∈ cs, d.Fits := fun d hd => hcs d (List.mem_cons_of_mem _ hd)
    rw [ConstantPool.fill, if_pos hlt, List.flatMap_cons]
    refine (reads_readSlots c (hcs c (List.mem_cons_self ..)) hroom).bind ?_
    cases hs : c.second? with
    | none =>
      have hw : c.width = 1 := by rw [← c.length_slots, Constant.slots, hs]; rfl
      have h := ih hrest (slots.push c.slot) (by rw [Array.size_push]; omega)
      simpa [Constant.slots, hs] using h
    | some second =>
      have hw : c.width = 2 := by rw [← c.length_slots, Constant.slots, hs]; rfl
      have h := ih hrest ((slots.push c.slot).push second) (by
        rw [Array.size_push, Array.size_push]
        omega)
      simpa [Constant.slots, hs] using h

def table (pool : List Constant) : ConstantPool :=
  ⟨(ClassReport.Constant.unusable :: pool.flatMap Constant.slots).toArray⟩

theorem reads_pool (pool : List Constant) (hpool : ∀ c ∈ pool, c.Fits)
    (hslots : 1 + slotCount pool < 0x10000) :
    Reads ConstantPool.read
      (bigEndian 2 (1 + slotCount pool) ++ pool.flatMap Constant.encode) (table pool) := by
  have hfill := reads_fill pool hpool (1 + slotCount pool) #[.unusable] rfl
  have htable : table pool =
      ⟨#[ClassReport.Constant.unusable] ++ (pool.flatMap Constant.slots).toArray⟩ := by
    simp [table]
  rw [htable]
  exact reads_count2 (fun n => ConstantPool.fill n #[.unusable] >>= fun slots =>
    pure (⟨slots⟩ : ConstantPool)) hslots (hfill.map ConstantPool.mk)

variable {pool : List Constant}

theorem slot_of_stands {index : UInt16} {c : Constant} (h : Stands pool index c) :
    (table pool).slots[index.toNat]? = some c.slot := by
  obtain ⟨before, after, rfl, hindex⟩ := h
  have hlen := length_flatMap_slots before
  have hsplit : (before ++ c :: after).flatMap Constant.slots =
      before.flatMap Constant.slots ++ (c.slot :: (c.second?.toList ++ after.flatMap Constant.slots)) := by
    simp [Constant.slots]
  rw [table, List.getElem?_toArray, hindex, Nat.add_comm, List.getElem?_cons_succ, hsplit, ← hlen,
    List.getElem?_append_right (Nat.le_refl _), Nat.sub_self]
  rfl

theorem TextRef.utf8_index (ref : TextRef pool) : (table pool).utf8 ref.index = .ok ref.text := by
  rw [ConstantPool.utf8, slot_of_stands ref.stands]
  rfl

theorem ClassRef.className_index (ref : ClassRef pool) :
    (table pool).className ref.index = .ok ref.text := by
  rw [ConstantPool.className, slot_of_stands ref.stands]
  exact ref.name.utf8_index

theorem TextRef.reads (ref : TextRef pool) :
    Reads (table pool).readUtf8 ref.encode ref.text :=
  (reads_u2 ref.index).resolve (table pool).utf8 ref.utf8_index

theorem ClassRef.reads (ref : ClassRef pool) :
    Reads (table pool).readClassName ref.encode ref.text :=
  (reads_u2 ref.index).resolve (table pool).className ref.className_index

/-! ### Annotations -/

/-- A value whose tag and first part are read leaves what it holds on top of the list. -/
theorem skip_value_head {kept : ConstantPool} {tag : UInt8} {head : Bytes} {inner : Annotations.Pending}
    (h : Reads (Annotations.readValueHead kept tag) head inner) (count : Nat)
    (todo : List Annotations.Pending) (rest : Bytes) :
    Annotations.skip kept (.values (count + 1) :: todo) (tag :: (head ++ rest)) =
      Annotations.skip kept (inner :: .values count :: todo) rest := by
  have hr := h rest
  rw [Annotations.skip]
  split
  · rename_i e he
    rw [hr] at he
    cases he
  · rename_i inner' left he
    rw [hr] at he
    cases he
    rfl

theorem skip_values_zero (kept : ConstantPool) (todo : List Annotations.Pending) (bs : Bytes) :
    Annotations.skip kept (.values 0 :: todo) bs = Annotations.skip kept todo bs := by
  rw [Annotations.skip]

theorem skip_pairs_zero (kept : ConstantPool) (todo : List Annotations.Pending) (bs : Bytes) :
    Annotations.skip kept (.pairs 0 :: todo) bs = Annotations.skip kept todo bs := by
  rw [Annotations.skip]

theorem skip_pair_name (kept : ConstantPool) (name count : Nat) (todo : List Annotations.Pending)
    (rest : Bytes) :
    Annotations.skip kept (.pairs (count + 1) :: todo) (bigEndian 2 name ++ rest) =
      Annotations.skip kept (.values 1 :: .pairs count :: todo) rest := by
  rw [bigEndian_two]
  show Annotations.skip kept _ (_ :: _ :: rest) = _
  rw [Annotations.skip]

theorem layout_literal (kind : Literal) :
    Annotations.ValueLayout.ofTag? (tagOf kind.letter) = some .constant := by
  cases kind <;> rfl

theorem reads_literal (kept : ConstantPool) (kind : Literal) (index : UInt16) :
    Reads (Annotations.readValueHead kept (tagOf kind.letter)) (bigEndian 2 index.toNat)
      (.values 0) := by
  rw [Annotations.readValueHead, layout_literal]
  exact (reads_u2 index).map fun _ => Annotations.Pending.values 0

theorem reads_enumeration (kept : ConstantPool) (type name : UInt16) :
    Reads (Annotations.readValueHead kept (tagOf 'e'))
      (bigEndian 2 type.toNat ++ bigEndian 2 name.toNat) (.values 0) :=
  (reads_u2 type).bind ((reads_u2 name).map fun _ => Annotations.Pending.values 0)

theorem reads_arrayHead (kept : ConstantPool) {count : Nat} (h : count < 0x10000) :
    Reads (Annotations.readValueHead kept (tagOf '[')) (bigEndian 2 count) (.values count) := by
  have hr := reads_count2 (fun n => pure (Annotations.Pending.values n)) h (reads_pure _)
  rwa [List.append_nil] at hr

/-- The type of an annotation and the number of its values, and a step that makes use of both. -/
theorem reads_head {α : Type} (next : String → Nat → Reader α) (type : TextRef pool) {count : Nat}
    (h : count < 0x10000) {written : Bytes} {value : α}
    (hn : Reads (next type.text count) written value) :
    Reads (Annotations.readHead (table pool) >>= fun got => next got.1 got.2.toNat)
      ((type.encode ++ bigEndian 2 count) ++ written) value := by
  have hcount : (UInt16.ofNat count).toNat = count := UInt16.toNat_ofNat_of_lt' h
  have hu := reads_u2 (UInt16.ofNat count)
  rw [hcount] at hu
  have hhead : Reads (Annotations.readHead (table pool)) (type.encode ++ bigEndian 2 count)
      (type.text, UInt16.ofNat count) := type.reads.bind (hu.map fun pairs => (type.text, pairs))
  refine hhead.bind ?_
  show Reads (next type.text (UInt16.ofNat count).toNat) written value
  rwa [hcount]

theorem reads_nestedHead (type : TextRef pool) {count : Nat} (h : count < 0x10000) :
    Reads (Annotations.readValueHead (table pool) (tagOf '@')) (type.encode ++ bigEndian 2 count)
      (.pairs count) := by
  have hr := reads_head (fun _ n => pure (Annotations.Pending.pairs n)) type h (reads_pure _)
  rwa [List.append_nil] at hr

-- The three statements follow the three kinds of node; the list of what is pending stays arbitrary, so that
-- a value can be stepped over wherever it stands.
mutual
theorem skip_value : ∀ (value : Value pool), value.Fits → ∀ (count : Nat)
    (todo : List Annotations.Pending) (rest : Bytes),
    Annotations.skip (table pool) (.values (count + 1) :: todo) (value.encode ++ rest) =
      Annotations.skip (table pool) (.values count :: todo) rest
  | .literal kind index, _, count, todo, rest => by
    rw [Value.encode, List.cons_append, skip_value_head (reads_literal _ kind index), skip_values_zero]
  | .enumeration type name, _, count, todo, rest => by
    rw [Value.encode, List.cons_append, skip_value_head (reads_enumeration _ type name),
      skip_values_zero]
  | .nested type pairs, ⟨hlen, hpairs⟩, count, todo, rest => by
    have hhead := reads_nestedHead type hlen
    rw [Value.encode, List.cons_append, ← List.append_assoc, List.append_assoc, skip_value_head hhead]
    exact skip_pairs pairs hpairs _ rest
  | .array values, ⟨hlen, hvalues⟩, count, todo, rest => by
    have hhead := reads_arrayHead (table pool) hlen
    rw [Value.encode, List.cons_append, List.append_assoc, skip_value_head hhead]
    exact skip_values values hvalues _ rest
theorem skip_values : ∀ (values : List (Value pool)), ValuesFit values →
    ∀ (todo : List Annotations.Pending) (rest : Bytes),
    Annotations.skip (table pool) (.values values.length :: todo) (encodeValues values ++ rest) =
      Annotations.skip (table pool) todo rest
  | [], _, todo, rest => skip_values_zero _ todo rest
  | value :: values, ⟨hvalue, hvalues⟩, todo, rest => by
    rw [encodeValues, List.append_assoc, List.length_cons, skip_value value hvalue]
    exact skip_values values hvalues todo rest
theorem skip_pairs : ∀ (pairs : List (UInt16 × Value pool)), PairsFit pairs →
    ∀ (todo : List Annotations.Pending) (rest : Bytes),
    Annotations.skip (table pool) (.pairs pairs.length :: todo) (encodePairs pairs ++ rest) =
      Annotations.skip (table pool) todo rest
  | [], _, todo, rest => skip_pairs_zero _ todo rest
  | (name, value) :: pairs, ⟨hvalue, hpairs⟩, todo, rest => by
    rw [encodePairs, List.append_assoc, List.length_cons, skip_pair_name, List.append_assoc,
      skip_value value hvalue, skip_values_zero]
    exact skip_pairs pairs hpairs todo rest
end

namespace AnnotationLayout

theorem reads (a : AnnotationLayout pool) (h : a.Fits) :
    Reads (Annotations.read (table pool)) a.encode a.type.text := by
  have hskip : Reads (Annotations.skip (table pool) [.pairs a.pairs.length]) (encodePairs a.pairs)
      () := by
    intro rest
    rw [skip_pairs a.pairs h.2, Annotations.skip]
  rw [encode, ← List.append_assoc]
  exact reads_head (fun type n => Annotations.skip (table pool) [.pairs n] >>= fun _ => pure type)
    a.type h.1 (hskip.map _)

theorem reads_list {list : List (AnnotationLayout pool)} (h : ListFits list) :
    Reads (Annotations.readList (table pool)) (encodeList list) (types list) :=
  reads_countedList h.1 fun a ha => a.reads (h.2 a ha)

end AnnotationLayout

/-! ### Attributes -/

namespace AttributeContent

/-- What the attribute tells a report. -/
def kept : AttributeContent pool → MemberAttribute
  | .signature text _ => .signature text.text
  | .annotations _ list _ => .annotations (AnnotationLayout.types list)
  | .parameterAnnotations _ table _ => .parameterAnnotations (table.map AnnotationLayout.types)
  | .other _ => .other

theorem readBody_annotations (known : ConstantPool) (visible : Bool) :
    MemberAttribute.readBody known
        (if visible then "RuntimeVisibleAnnotations" else "RuntimeInvisibleAnnotations") =
      (Annotations.readList known >>= fun types => pure (MemberAttribute.annotations types)) := by
  cases visible <;> rfl

theorem readBody_parameterAnnotations (known : ConstantPool) (visible : Bool) :
    MemberAttribute.readBody known
        (if visible then "RuntimeVisibleParameterAnnotations"
          else "RuntimeInvisibleParameterAnnotations") =
      (u1 >>= fun count => readMany count.toNat (Annotations.readList known) >>= fun groups =>
        pure (MemberAttribute.parameterAnnotations groups)) := by
  cases visible <;> rfl

theorem readBody_other (known : ConstantPool) {name : String} (h : name ∉ knownNames) :
    MemberAttribute.readBody known name = pure .other := by
  simp only [knownNames, List.mem_cons, List.not_mem_nil, or_false, not_or] at h
  obtain ⟨h1, h2, h3, h4, h5⟩ := h
  unfold MemberAttribute.readBody
  split
  · exact absurd rfl h1
  · exact absurd rfl h2
  · exact absurd rfl h3
  · exact absurd rfl h4
  · exact absurd rfl h5
  · rfl

theorem reads (content : AttributeContent pool) {name : String} (hname : content.BelongsTo name)
    (h : content.Fits) :
    Reads (within content.encode.length (MemberAttribute.readBody (table pool) name)) content.encode
      content.kept := by
  cases content with
  | signature text extra =>
    rw [BelongsTo] at hname
    subst hname
    exact reads_within (text.reads.map MemberAttribute.signature)
  | annotations visible list extra =>
    rw [BelongsTo] at hname
    rw [hname, readBody_annotations]
    exact reads_within ((AnnotationLayout.reads_list h).map MemberAttribute.annotations)
  | parameterAnnotations visible groups extra =>
    have hmany : Reads (readMany groups.length (Annotations.readList (table pool)))
        (groups.flatMap AnnotationLayout.encodeList) (groups.map AnnotationLayout.types) :=
      reads_readMany fun list hl => AnnotationLayout.reads_list (h.2 list hl)
    rw [BelongsTo] at hname
    rw [hname, readBody_parameterAnnotations]
    exact reads_within (reads_count1
      (fun n => readMany n (Annotations.readList (table pool)) >>= fun groups =>
        pure (MemberAttribute.parameterAnnotations groups)) h.1 (hmany.map _))
  | other body =>
    rw [readBody_other _ hname]
    exact reads_within (reads_pure MemberAttribute.other)

end AttributeContent

theorem Attribute.reads (a : Attribute pool) (h : a.Fits) :
    Reads (MemberAttribute.read (table pool)) a.encode a.content.kept :=
  a.name.reads.bind (reads_count4
    (fun n => within n (MemberAttribute.readBody (table pool) a.name.text)) h.1
    (a.content.reads a.named h.2))

/-! ### Members -/

theorem length_mergeGroups (first second : List (List String)) :
    (ClassReport.Member.mergeGroups first second).length = max first.length second.length := by
  fun_induction ClassReport.Member.mergeGroups first second with
  | case1 second => simp
  | case2 first => simp
  | case3 a first b second ih =>
    simp only [List.length_cons, ih]
    omega

theorem getD_mergeGroups (first second : List (List String)) (i : Nat) :
    (ClassReport.Member.mergeGroups first second).getD i [] = first.getD i [] ++ second.getD i [] := by
  fun_induction ClassReport.Member.mergeGroups first second generalizing i with
  | case1 second => simp
  | case2 first => simp
  | case3 a first b second ih =>
    cases i with
    | zero => rfl
    | succ i => exact ih i

theorem length_mergeAll (tables : List (List (List String))) (groups : List (List String)) :
    (tables.foldl ClassReport.Member.mergeGroups groups).length =
      (tables.map List.length).foldl max groups.length := by
  induction tables generalizing groups with
  | nil => rfl
  | cons t tables ih => rw [List.foldl_cons, ih, length_mergeGroups, List.map_cons, List.foldl_cons]

theorem getD_mergeAll (tables : List (List (List String))) (groups : List (List String)) (i : Nat) :
    (tables.foldl ClassReport.Member.mergeGroups groups).getD i [] =
      groups.getD i [] ++ tables.flatMap fun table => table.getD i [] := by
  induction tables generalizing groups with
  | nil => simp
  | cons t tables ih =>
    rw [List.foldl_cons, ih, getD_mergeGroups, List.append_assoc, List.flatMap_cons]

/-- Merging tables one after another puts together what they say of each position. -/
theorem mergeAll_eq (tables : List (List (List String))) :
    tables.foldl ClassReport.Member.mergeGroups [] =
      (List.range ((tables.map List.length).foldl max 0)).map fun i =>
        tables.flatMap fun table => table.getD i [] := by
  have hlen := length_mergeAll tables []
  apply List.ext_getElem
  · rw [hlen, List.length_map, List.length_range]
    rfl
  · intro i hi hi'
    have hget := getD_mergeAll tables [] i
    rw [List.getD_eq_getElem?_getD, List.getElem?_eq_getElem hi, Option.getD_some] at hget
    rw [hget, List.getElem_map, List.getElem_range]
    rfl

/-- What a list of attributes makes of a member. -/
theorem foldl_withAttribute (attributes : List (Attribute pool)) (m : ClassReport.Member) :
    (attributes.map fun a => a.content.kept).foldl ClassReport.Member.withAttribute m =
      { m with
        signature := (attributes.filterMap fun a => a.content.signature?).getLast?.or m.signature
        annotations := m.annotations ++ attributes.flatMap fun a => a.content.annotationTypes
        parameterAnnotations :=
          (attributes.map fun a => a.content.parameterTable).foldl
            ClassReport.Member.mergeGroups m.parameterAnnotations } := by
  induction attributes generalizing m with
  | nil => simp
  | cons a attributes ih =>
    rw [List.map_cons, List.foldl_cons, ih]
    have hnil (groups : List (List String)) :
        ClassReport.Member.mergeGroups groups [] = groups := by cases groups <;> rfl
    cases hc : a.content with
    | signature text extra =>
      simp [AttributeContent.kept, AttributeContent.signature?, AttributeContent.annotationTypes,
        AttributeContent.parameterTable, ClassReport.Member.withAttribute, hc, hnil,
        List.getLast?_cons]
    | annotations visible list extra =>
      simp [AttributeContent.kept, AttributeContent.signature?, AttributeContent.annotationTypes,
        AttributeContent.parameterTable, ClassReport.Member.withAttribute, hc, hnil]
    | parameterAnnotations visible groups extra =>
      simp [AttributeContent.kept, AttributeContent.signature?, AttributeContent.annotationTypes,
        AttributeContent.parameterTable, ClassReport.Member.withAttribute, hc]
    | other body =>
      simp [AttributeContent.kept, AttributeContent.signature?, AttributeContent.annotationTypes,
        AttributeContent.parameterTable, ClassReport.Member.withAttribute, hc, hnil]

namespace Member

theorem reads (m : Member pool) (h : m.Fits) :
    Reads (ClassReport.Member.read (table pool)) m.encode m.content := by
  have hattributes : Reads (readMany m.attributes.length (MemberAttribute.read (table pool)))
      (m.attributes.flatMap Attribute.encode) (m.attributes.map fun a => a.content.kept) :=
    reads_readMany fun a ha => a.reads (h.2 a ha)
  have hcontent : (m.attributes.map fun a => a.content.kept).foldl ClassReport.Member.withAttribute
      { flags := ⟨m.flags⟩, name := m.name.text, descriptor := m.descriptor.text,
        signature := none, annotations := [], parameterAnnotations := [] } = m.content := by
    rw [foldl_withAttribute, mergeAll_eq]
    simp [content, tables]
  rw [← hcontent]
  exact (reads_u2 m.flags).bind (m.name.reads.bind (m.descriptor.reads.bind
    (reads_count2 (fun n => readMany n (MemberAttribute.read (table pool)) >>= fun attributes =>
      pure (attributes.foldl ClassReport.Member.withAttribute
        { flags := ⟨m.flags⟩, name := m.name.text, descriptor := m.descriptor.text,
          signature := none, annotations := [], parameterAnnotations := [] }))
      h.1 (hattributes.map _))))

theorem reads_list {list : List (Member pool)} (h : ListFits list) :
    Reads (ClassReport.Member.readList (table pool)) (encodeList list) (list.map content) :=
  reads_countedList h.1 fun m hm => m.reads (h.2 m hm)

end Member

/-! ### Class files -/

namespace ClassFile

theorem reads_superClass (ref : Option (ClassRef pool)) :
    Reads (ClassReport.ClassFile.readSuperClass (table pool)) (encodeSuper ref)
      (ref.map ClassRef.text) := by
  cases ref with
  | none => exact fun rest => rfl
  | some ref =>
    have hindex : ref.index ≠ 0 := by
      obtain ⟨before, after, -, h⟩ := ref.stands
      intro h0
      rw [h0] at h
      simp only [UInt16.toNat_zero] at h
      omega
    have hname := ref.reads.map some
    intro rest
    have h := hname rest
    rw [ConstantPool.readClassName, bind_apply, bind_apply, ClassRef.encode, reads_u2] at h
    rw [ClassReport.ClassFile.readSuperClass, bind_apply, encodeSuper, ClassRef.encode, reads_u2]
    show (if ref.index = 0 then _ else _ : Reader (Option String)) rest = _
    rw [if_neg hindex, bind_apply]
    exact h

theorem reads_classAttribute (a : ClassAttribute) (h : a.body.length < 0x100000000) :
    Reads ClassReport.ClassFile.skipAttribute a.encode () :=
  (reads_u2 a.name).bind (reads_count4 (fun n => slice n >>= fun _ => pure ()) h
    ((reads_slice a.body).map fun _ => ()))

theorem reads (file : ClassFile) (h : file.Fits) :
    Reads ClassReport.ClassFile.read file.encode file.content := by
  have hinterfaces : Reads
      (readMany file.interfaces.length (table file.pool).readClassName)
      (file.interfaces.flatMap ClassRef.encode) (file.interfaces.map ClassRef.text) :=
    reads_readMany fun ref _ => ref.reads
  have hattributes : Reads (readMany file.attributes.length ClassReport.ClassFile.skipAttribute)
      (file.attributes.flatMap ClassAttribute.encode) (file.attributes.map fun _ => ()) :=
    reads_readMany fun a ha => reads_classAttribute a (h.attributeLength a ha)
  have hmagic : ¬ ((0xCAFEBABE : UInt32) ≠ ClassReport.ClassFile.magic) := by decide
  refine (reads_u4 0xCAFEBABE).bind ?_
  rw [if_neg hmagic]
  refine (reads_u2 file.minor).bind ?_
  refine (reads_u2 file.major).bind ?_
  refine (reads_pool file.pool h.constants h.slots).bind ?_
  refine (reads_u2 file.flags).bind ?_
  refine file.thisClass.reads.bind ?_
  refine (reads_superClass file.superClass).bind ?_
  refine reads_count2 (fun n => readMany n (table file.pool).readClassName >>= _) h.interfaces ?_
  refine hinterfaces.bind ?_
  refine (Member.reads_list h.fields).bind ?_
  refine (Member.reads_list h.methods).bind ?_
  exact reads_count2 (fun n => readMany n ClassReport.ClassFile.skipAttribute >>= fun _ => pure _)
    h.attributeCount (hattributes.map fun _ => file.content)

/-- Reading a class file gives what its tree says, whatever bytes follow; and a text that was written
in modified UTF-8 is that text again. -/
theorem parse_encoded_class (file : ClassFile) (h : file.Fits) (trailing : Bytes) :
    ClassReport.ClassFile.parse (file.encode ++ trailing) = .ok file.content ∧
      ∀ (ref : TextRef file.pool) (text : String),
        ref.bytes = ModifiedUtf8.encode text → ref.text = text := by
  constructor
  · rw [ClassReport.ClassFile.parse, file.reads h trailing]
    rfl
  · intro ref text hbytes
    rw [TextRef.text, hbytes]
    exact ModifiedUtf8.decode_encode text

/-- A pool in which a class precedes its name, a `long` takes two slots, and one text is used twice. -/
def samplePool : List Constant :=
  [.classRef 4, .long 7, .utf8 (ModifiedUtf8.encode "p/Sample"), .utf8 (ModifiedUtf8.encode "LMark;"),
    .utf8 (ModifiedUtf8.encode "RuntimeVisibleAnnotations"), .utf8 (ModifiedUtf8.encode "run"),
    .utf8 (ModifiedUtf8.encode "()V")]

def sampleMark : TextRef samplePool :=
  ⟨5, ModifiedUtf8.encode "LMark;", samplePool.take 3, samplePool.drop 4, rfl, rfl⟩

/-- A class with one method, whose annotation holds an array of an annotation and a number. -/
def sample : ClassFile where
  minor := 0
  major := 52
  pool := samplePool
  flags := 0x21
  thisClass :=
    ⟨1, ⟨4, ModifiedUtf8.encode "p/Sample", samplePool.take 2, samplePool.drop 3, rfl, rfl⟩,
      [], samplePool.drop 1, rfl, rfl⟩
  superClass := none
  interfaces := []
  fields := []
  methods :=
    [{ flags := 1
       name := ⟨7, ModifiedUtf8.encode "run", samplePool.take 5, samplePool.drop 6, rfl, rfl⟩
       descriptor := ⟨8, ModifiedUtf8.encode "()V", samplePool.take 6, [], rfl, rfl⟩
       attributes :=
         [{ name :=
              ⟨6, ModifiedUtf8.encode "RuntimeVisibleAnnotations", samplePool.take 4,
                samplePool.drop 5, rfl, rfl⟩
            content :=
              .annotations true
                [⟨sampleMark, [(7, .array [.nested sampleMark [], .literal .int 9])]⟩] [0xFF]
            named := ModifiedUtf8.decode_encode _ }] }]
  attributes := [⟨0, [1, 2, 3]⟩]

theorem sample_fits : sample.Fits where
  slots := by decide
  constants := by decide +kernel
  interfaces := by decide
  fields := ⟨by decide, fun m hm => nomatch hm⟩
  methods := by
    refine ⟨by decide, fun m hm => ?_⟩
    rcases List.mem_singleton.mp hm with rfl
    refine ⟨by decide, fun a ha => ?_⟩
    rcases List.mem_singleton.mp ha with rfl
    refine ⟨by decide, by decide, fun a ha => ?_⟩
    rcases List.mem_singleton.mp ha with rfl
    exact ⟨by decide, ⟨by decide, ⟨by decide, trivial⟩, trivial, trivial⟩, trivial⟩
  attributeCount := by decide
  attributeLength := by decide

theorem parse_sample : sample.Fits ∧
    ClassReport.ClassFile.parse (sample.encode ++ [0xCA, 0xFE]) =
      .ok { flags := ⟨0x21⟩, thisClass := "p/Sample", superClass := none, interfaces := [],
            fields := [],
            methods :=
              [{ flags := ⟨1⟩, name := "run", descriptor := "()V", signature := none,
                 annotations := ["LMark;"], parameterAnnotations := [] }] } := by
  refine ⟨sample_fits, (parse_encoded_class sample sample_fits [0xCA, 0xFE]).1.trans ?_⟩
  simp [content, sample, sampleMark, Member.content, Member.tables, ClassRef.text, TextRef.text,
    AttributeContent.signature?, AttributeContent.annotationTypes, AttributeContent.parameterTable,
    AnnotationLayout.types, ModifiedUtf8.decode_encode]

end ClassFile

end ClassReport.Layout
