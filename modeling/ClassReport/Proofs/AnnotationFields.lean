import ClassReport.Proofs.CutClassFiles

/-!
# The fields of annotations

A list of annotations is written as fields: numbers, types of annotations, and the tags of values. Which
fields may follow each other is a grammar (`ListForm`, over `ValueForm`), in which values nest through
annotations and arrays. Reading goes along the fields of the grammar and stops at the first one that is
cut off, is a tag that is not known, or is a type that is no text (`Breaks`), and so takes a list off the
front exactly where there is one (`readList_exact`). The reader follows every list of fields of the grammar
(`ListForm.follows`), and every byte string starts with one or breaks off inside one (`exists_list`).
-/

namespace ClassReport.Annotations
open Reader FailingState
open Layout (Literal tagOf)

/-! ### Fields -/

/-- What an annotation is written with. -/
inductive Field where
  /-- A count, or the index of a name or of a constant, which is never looked up. -/
  | number (value : UInt16)
  /-- The index of the type of an annotation. -/
  | type (index : UInt16)
  | tag (byte : UInt8)
  deriving DecidableEq, Repr

namespace Field

def bytes : Field → Bytes
  | number value => bigEndian 2 value.toNat
  | type index => bigEndian 2 index.toNat
  | tag byte => [byte]

def isTag : Field → Bool
  | tag _ => true
  | number _ | type _ => false

/-- The type of an annotation is a text of the pool. -/
def Resolves (pool : ConstantPool) : Field → Prop
  | type index => ∃ text, pool.utf8 index = .ok text
  | number _ | tag _ => True

end Field

def knownTags : List UInt8 :=
  ['B', 'C', 'D', 'F', 'I', 'J', 'S', 'Z', 's', 'c', 'e', '@', '['].map tagOf

/-- In the place of the field the bytes are at fault, and that is the error. -/
inductive Field.Offends (pool : ConstantPool) : Field → Bytes → ClassFileError → Prop
  | ends {field : Field} {bs : Bytes} (h : bs.length < field.bytes.length) :
      Offends pool field bs .unexpectedEnd
  | unknownTag {expected tag : UInt8} {rest : Bytes} (h : tag ∉ knownTags) :
      Offends pool (.tag expected) (tag :: rest) (.invalidElementTag tag)
  | noText {index : UInt16} {rest : Bytes} (h : ∀ text, pool.utf8 index ≠ .ok text) :
      Offends pool (.type index) (bigEndian 2 index.toNat ++ rest) (.invalidConstantIndex index)

def written (fields : List Field) : Bytes := fields.flatMap Field.bytes

/-- The bytes go along the fields up to the first one that offends, and that gives the error. -/
inductive Breaks (pool : ConstantPool) : List Field → Bytes → ClassFileError → Prop
  | here {field : Field} {fields : List Field} {bs : Bytes} {e : ClassFileError}
      (h : field.Offends pool bs e) : Breaks pool (field :: fields) bs e
  | behind {field : Field} {fields : List Field} {bs : Bytes} {e : ClassFileError}
      (hfield : field.Resolves pool) (h : Breaks pool fields bs e) :
      Breaks pool (field :: fields) (field.bytes ++ bs) e

/-! ### The grammar -/

mutual
/-- The fields of a value. -/
inductive ValueForm : List Field → Prop
  | literal (kind : Literal) (index : UInt16) : ValueForm [.tag (tagOf kind.letter), .number index]
  | enumeration (type name : UInt16) : ValueForm [.tag (tagOf 'e'), .number type, .number name]
  | nested {type : UInt16} {fields : List Field} (h : AnnotationForm type fields) :
      ValueForm (.tag (tagOf '@') :: fields)
  | array {count : UInt16} {fields : List Field} (h : ValuesForm count.toNat fields) :
      ValueForm (.tag (tagOf '[') :: .number count :: fields)
/-- The fields of so many values. -/
inductive ValuesForm : Nat → List Field → Prop
  | nil : ValuesForm 0 []
  | cons {count : Nat} {value values : List Field} (hvalue : ValueForm value)
      (hvalues : ValuesForm count values) : ValuesForm (count + 1) (value ++ values)
/-- The fields of so many named values. -/
inductive PairsForm : Nat → List Field → Prop
  | nil : PairsForm 0 []
  | cons {count : Nat} {name : UInt16} {value pairs : List Field} (hvalue : ValueForm value)
      (hpairs : PairsForm count pairs) : PairsForm (count + 1) (.number name :: (value ++ pairs))
/-- The fields of an annotation of that type. -/
inductive AnnotationForm : UInt16 → List Field → Prop
  | intro {type count : UInt16} {pairs : List Field} (h : PairsForm count.toNat pairs) :
      AnnotationForm type (.type type :: .number count :: pairs)
end

/-- The fields of annotations of these types. -/
inductive AnnotationsForm : List UInt16 → List Field → Prop
  | nil : AnnotationsForm [] []
  | cons {type : UInt16} {types : List UInt16} {fields more : List Field}
      (h : AnnotationForm type fields) (hmore : AnnotationsForm types more) :
      AnnotationsForm (type :: types) (fields ++ more)

/-- The fields of a list of annotations of these types. -/
inductive ListForm : List UInt16 → List Field → Prop
  | intro {count : UInt16} {types : List UInt16} {fields : List Field}
      (h : AnnotationsForm types fields) (hcount : types.length = count.toNat) :
      ListForm types (.number count :: fields)

variable {pool : ConstantPool}

theorem written_append (first second : List Field) :
    written (first ++ second) = written first ++ written second := List.flatMap_append ..

/-- A run of fields breaks off in the first of two parts, or is through with it and breaks off in the second. -/
theorem Breaks.append_cases {first second : List Field} {bs : Bytes} {e : ClassFileError}
    (h : Breaks pool (first ++ second) bs e) :
    Breaks pool first bs e ∨
      (∀ field ∈ first, field.Resolves pool) ∧
        ∃ left, bs = written first ++ left ∧ Breaks pool second left e := by
  induction first generalizing bs with
  | nil => exact .inr ⟨fun _ hfield => (nomatch hfield), bs, rfl, h⟩
  | cons field first ih =>
    cases h with
    | here h => exact .inl (.here h)
    | behind hfield h =>
      obtain hfirst | ⟨hfirst, left, rfl, hsecond⟩ := ih h
      · exact .inl (.behind hfield hfirst)
      · refine .inr ⟨?_, left, (List.append_assoc ..).symm, hsecond⟩
        exact List.forall_mem_cons.mpr ⟨hfield, hfirst⟩

theorem Breaks.append {first : List Field} {bs : Bytes} {e : ClassFileError} (h : Breaks pool first bs e)
    (second : List Field) : Breaks pool (first ++ second) bs e := by
  induction h with
  | here h => exact .here h
  | behind hfield _ ih => exact .behind hfield ih

/-- A part that the bytes are through with may be put in front. -/
theorem Breaks.prepend {first second : List Field} {left : Bytes} {e : ClassFileError}
    (hfirst : ∀ field ∈ first, field.Resolves pool) (h : Breaks pool second left e) :
    Breaks pool (first ++ second) (written first ++ left) e := by
  induction first with
  | nil => exact h
  | cons field first ih =>
    obtain ⟨hfield, hfirst⟩ := List.forall_mem_cons.mp hfirst
    have hbytes : written (field :: first) ++ left = field.bytes ++ (written first ++ left) :=
      List.append_assoc ..
    rw [hbytes]
    exact .behind hfield (ih hfirst)

/-! ### Values one by one -/

section Values

variable (pool)

theorem skip_nil : skip pool [] = pure () := by
  funext bs
  rw [skip]
  rfl

theorem skip_append (todo more : List Pending) :
    skip pool (todo ++ more) = skip pool todo >>= fun _ => skip pool more := by
  funext bs
  fun_induction skip pool todo bs with
  | case1 bs => rw [skip_nil, List.nil_append, pure_bind]
  | case2 todo bs ih => rw [bind_apply, List.cons_append, skip, skip, ih, bind_apply]
  | case3 todo bs ih => rw [bind_apply, List.cons_append, skip, skip, ih, bind_apply]
  | case4 count todo a b rest ih => rw [bind_apply, List.cons_append, skip, skip, ← bind_apply, ← ih]; rfl
  | case5 count todo bs hshort =>
    have hend : u2 bs = .error .unexpectedEnd := by
      unfold u2
      split
      · exact absurd rfl (hshort _ _ _)
      · rfl
    rw [List.cons_append, skip_pair_eq, skip_pair_eq, bind_assoc, bind_apply, bind_apply, hend]
  | case6 count todo tag rest e hhead =>
    rw [List.cons_append, skip_value_eq, skip_value_eq]
    simp only [bind_apply, u1, hhead]
  | case7 count todo tag rest inner left hhead _ ih =>
    rw [List.cons_append, skip_value_eq, skip_value_eq]
    simp only [bind_apply, u1, hhead]
    rw [← bind_apply, ← ih]
    rfl
  | case8 count todo =>
    rw [List.cons_append, skip_value_eq, skip_value_eq]
    simp only [bind_apply, u1]

theorem skip_cons (next : Pending) (todo : List Pending) :
    skip pool (next :: todo) = skip pool [next] >>= fun _ => skip pool todo :=
  skip_append pool [next] todo

theorem skip_values_zero : skip pool [.values 0] = pure () := by
  rw [funext (Layout.skip_values_zero pool []), skip_nil]

theorem skip_pairs_zero : skip pool [.pairs 0] = pure () := by
  rw [funext (Layout.skip_pairs_zero pool []), skip_nil]

/-- Steps over one value. -/
def skipValue : Reader Unit := skip pool [.values 1]

/-- The tag of a value, as the layout that it announces. -/
def readLayout : Reader ValueLayout := do
  let tag ← u1
  match ValueLayout.ofTag? tag with
  | some layout => pure layout
  | none => throw (.invalidElementTag tag)

/-- Steps over what stands behind the tag of a value. -/
def skipContent : ValueLayout → Reader Unit
  | .constant => do
    let _ ← u2
    pure ()
  | .enumeration => do
    let _ ← u2
    let _ ← u2
    pure ()
  | .nested => do
    let head ← readHead pool
    skip pool [.pairs head.2.toNat]
  | .array => do
    let count ← u2
    skip pool [.values count.toNat]

theorem skipValue_eq : skipValue pool = readLayout >>= skipContent pool := by
  have hcontent (tag : UInt8) : (readValueHead pool tag >>= fun inner => skip pool [inner]) =
      (match ValueLayout.ofTag? tag with
        | some layout => pure layout
        | none => throw (.invalidElementTag tag)) >>= skipContent pool := by
    unfold readValueHead
    cases ValueLayout.ofTag? tag with
    | none => rfl
    | some layout =>
      rw [pure_bind]
      cases layout <;> simp only [bind_assoc, pure_bind, skip_values_zero] <;> rfl
  have hlast (inner : Pending) : skip pool [inner, .values 0] = skip pool [inner] := by
    rw [skip_cons, skip_values_zero]
    exact bind_pure_unit
  rw [skipValue, skip_value_eq, readLayout, bind_assoc]
  simp only [hlast, hcontent]

theorem skip_values_succ (count : Nat) :
    skip pool [.values (count + 1)] = skipValue pool >>= fun _ => skip pool [.values count] := by
  have hsplit (inner : Pending) : skip pool [inner, .values count] =
      skip pool [inner, .values 0] >>= fun _ => skip pool [.values count] := by
    rw [skip_cons pool inner [.values 0], bind_assoc, skip_values_zero]
    simp only [pure_bind]
    exact skip_cons pool inner [.values count]
  rw [skipValue, skip_value_eq, skip_value_eq]
  simp only [bind_assoc, hsplit]

theorem skip_pairs_succ (count : Nat) :
    skip pool [.pairs (count + 1)] =
      u2 >>= fun _ => skipValue pool >>= fun _ => skip pool [.pairs count] := by
  rw [skip_pair_eq]
  exact congrArg (u2 >>= ·) (funext fun _ => skip_cons pool (.values 1) [.pairs count])

end Values

/-! ### Following fields -/

/-- The reader takes the fields and gives that value if all types of annotations are texts, and gives the
error where the bytes break off. -/
structure Follows {α : Type} (pool : ConstantPool) (reader : Reader α) (fields : List Field) (value : α) :
    Prop where
  takes : (∀ field ∈ fields, field.Resolves pool) → Reads reader (written fields) value
  breaks : ∀ {bs : Bytes} {e : ClassFileError}, Breaks pool fields bs e → reader bs = .error e

variable {α β : Type} {reader : Reader α} {fields : List Field} {value : α}

theorem follows_pure (value : α) : Follows pool (pure value) [] value where
  takes _ := reads_pure value
  breaks h := nomatch h

theorem Follows.bind {next : α → Reader β} {more : List Field} {result : β}
    (hr : Follows pool reader fields value) (hn : Follows pool (next value) more result) :
    Follows pool (reader >>= next) (fields ++ more) result where
  takes h := by
    rw [List.forall_mem_append] at h
    rw [written_append]
    exact (hr.takes h.1).bind (hn.takes h.2)
  breaks h := by
    obtain hfirst | ⟨hresolves, left, rfl, hsecond⟩ := h.append_cases
    · rw [bind_apply, hr.breaks hfirst]
    · rw [bind_apply, hr.takes hresolves left]
      exact hn.breaks hsecond

/-- A last step that takes nothing. -/
theorem Follows.map (f : α → β) (h : Follows pool reader fields value) :
    Follows pool (reader >>= fun got => pure (f got)) fields (f value) := by
  have hf : Follows pool (reader >>= fun got => pure (f got)) (fields ++ []) (f value) :=
    h.bind (follows_pure (f value))
  rwa [List.append_nil] at hf

/-- A reader follows a field if it takes it and gives the error where the bytes offend. -/
theorem follows_field {field : Field}
    (htakes : field.Resolves pool → Reads reader field.bytes value)
    (hoffends : ∀ {bs : Bytes} {e : ClassFileError}, field.Offends pool bs e → reader bs = .error e) :
    Follows pool reader [field] value where
  takes h := by
    have hbytes : written [field] = field.bytes := List.append_nil _
    rw [hbytes]
    exact htakes (h field (List.mem_singleton_self _))
  breaks h := by
    cases h with
    | here h => exact hoffends h
    | behind _ h => nomatch h

theorem u1_of_short {bs : Bytes} (h : bs.length < 1) : u1 bs = .error .unexpectedEnd := by
  rw [List.eq_nil_of_length_eq_zero (Nat.lt_one_iff.mp h), u1]

theorem u2_of_short {bs : Bytes} (h : bs.length < 2) : u2 bs = .error .unexpectedEnd := by
  unfold u2
  split
  · exact absurd h (by simp)
  · rfl

theorem follows_number (n : UInt16) : Follows pool u2 [.number n] n := by
  refine follows_field (fun _ => ?_) fun h => ?_
  · exact reads_u2 n
  · cases h with
    | ends h => exact u2_of_short h

/-- The text that the type of an annotation stands for. -/
def typeText (pool : ConstantPool) (index : UInt16) : String :=
  match pool.utf8 index with
  | .ok text => text
  | .error _ => ""

theorem utf8_typeText {index : UInt16} (h : (Field.type index).Resolves pool) :
    pool.utf8 index = .ok (typeText pool index) := by
  obtain ⟨text, htext⟩ := h
  rw [typeText, htext]

theorem follows_type (index : UInt16) :
    Follows pool pool.readUtf8 [.type index] (typeText pool index) := by
  refine follows_field (fun h => ?_) fun h => ?_
  · exact (reads_u2 index).resolve pool.utf8 (utf8_typeText h)
  · cases h with
    | ends h =>
      have hend := u2_of_short h
      rw [ConstantPool.readUtf8, bind_apply, hend]
    | noText h =>
      rw [ConstantPool.readUtf8, bind_apply, reads_u2 index]
      simp only [ConstantPool.utf8_eq_error h]
      rfl

theorem ofTag?_eq_none_iff (tag : UInt8) : ValueLayout.ofTag? tag = none ↔ tag ∉ knownTags := by
  have hall : ∀ n : Fin 256, ValueLayout.ofTag? (UInt8.ofFin n) = none ↔ UInt8.ofFin n ∉ knownTags := by
    decide +kernel
  exact hall tag.toFin

theorem follows_layout {tag : UInt8} {layout : ValueLayout} (hlayout : ValueLayout.ofTag? tag = some layout) :
    Follows pool readLayout [.tag tag] layout := by
  refine follows_field (fun _ rest => ?_) fun h => ?_
  · simp only [readLayout, Field.bytes, bind_apply, reads_u1 tag rest, hlayout]
    rfl
  · cases h with
    | ends h =>
      have hend := u1_of_short h
      rw [readLayout, bind_apply, hend]
    | unknownTag h =>
      simp only [readLayout, bind_apply, u1, (ofTag?_eq_none_iff _).mpr h]
      rfl

/-! ### Following the grammar -/

theorem Follows.tagged {tag : UInt8} {layout : ValueLayout} (hlayout : ValueLayout.ofTag? tag = some layout)
    (h : Follows pool (skipContent pool layout) fields ()) :
    Follows pool (skipValue pool) (.tag tag :: fields) () := by
  rw [skipValue_eq]
  exact (follows_layout hlayout).bind h

/-- The head of an annotation, and a step behind it that makes use of the type and of the number of named
values. -/
theorem Follows.head {type count : UInt16} (next : String → Nat → Reader α)
    (h : Follows pool (next (typeText pool type) count.toNat) fields value) :
    Follows pool (readHead pool >>= fun head => next head.1 head.2.toNat)
      (.type type :: .number count :: fields) value := by
  have hhead : Follows pool (readHead pool) [.type type, .number count] (typeText pool type, count) :=
    (follows_type type).bind ((follows_number count).map fun pairs => (typeText pool type, pairs))
  exact hhead.bind h

mutual
theorem ValueForm.follows : ∀ {fields : List Field}, ValueForm fields →
    Follows pool (skipValue pool) fields ()
  | _, .literal kind index =>
    Follows.tagged (Layout.layout_literal kind) ((follows_number index).map fun _ => ())
  | _, .enumeration type name =>
    have h : Follows pool (skipContent pool .enumeration) [.number type, .number name] () :=
      (follows_number type).bind ((follows_number name).map fun _ => ())
    Follows.tagged rfl h
  | _, .nested (.intro hpairs) =>
    have h : Follows pool (skipContent pool .nested) _ () :=
      Follows.head (fun _ count => skip pool [.pairs count]) hpairs.follows
    Follows.tagged rfl h
  | _, .array hvalues =>
    have h : Follows pool (skipContent pool .array) _ () := (follows_number _).bind hvalues.follows
    Follows.tagged rfl h
theorem ValuesForm.follows : ∀ {count : Nat} {fields : List Field}, ValuesForm count fields →
    Follows pool (skip pool [.values count]) fields ()
  | _, _, .nil => by
    rw [skip_values_zero]
    exact follows_pure ()
  | _, _, .cons hvalue hvalues => by
    rw [skip_values_succ]
    exact hvalue.follows.bind hvalues.follows
theorem PairsForm.follows : ∀ {count : Nat} {fields : List Field}, PairsForm count fields →
    Follows pool (skip pool [.pairs count]) fields ()
  | _, _, .nil => by
    rw [skip_pairs_zero]
    exact follows_pure ()
  | _, _, .cons hvalue hpairs => by
    rw [skip_pairs_succ]
    exact (follows_number _).bind (hvalue.follows.bind hpairs.follows)
end

theorem AnnotationForm.follows {type : UInt16} {fields : List Field} (h : AnnotationForm type fields) :
    Follows pool (read pool) fields (typeText pool type) := by
  cases h with
  | intro hpairs =>
    exact Follows.head (fun type count => skip pool [.pairs count] >>= fun _ => pure type)
      (hpairs.follows.map fun _ => typeText pool type)

theorem AnnotationsForm.follows {types : List UInt16} {fields : List Field}
    (h : AnnotationsForm types fields) (done : List String) :
    Follows pool
      (iterate (fun items => read pool >>= fun next => pure (next :: items)) types.length done) fields
      ((types.map (typeText pool)).reverse ++ done) := by
  induction h generalizing done with
  | nil => exact follows_pure done
  | @cons type types fields more h _ ih =>
    rw [List.map_cons, List.reverse_cons, List.append_assoc]
    exact (h.follows.map (· :: done)).bind (ih (typeText pool type :: done))

theorem ListForm.follows {types : List UInt16} {fields : List Field} (h : ListForm types fields) :
    Follows pool (readList pool) fields (types.map (typeText pool)) := by
  cases h with
  | @intro count _ fields h hcount =>
    have hmany : Follows pool (readMany count.toNat (read pool)) fields (types.map (typeText pool)) := by
      have hreversed : Follows pool _ fields _ := h.follows []
      have hall := hreversed.map List.reverse
      rwa [List.append_nil, List.reverse_reverse, hcount] at hall
    exact (follows_number count).bind hmany

/-! ### Every byte string goes along some fields -/

/-- The bytes begin with the fields, or break off inside them. -/
def Meets (pool : ConstantPool) (fields : List Field) (bs : Bytes) : Prop :=
  ((∀ field ∈ fields, field.Resolves pool) ∧ ∃ rest, bs = written fields ++ rest) ∨
    ∃ e, Breaks pool fields bs e

theorem meets_nil (bs : Bytes) : Meets pool [] bs := .inl ⟨fun _ h => (nomatch h), bs, rfl⟩

theorem Meets.prepend {first second : List Field} {left : Bytes}
    (hfirst : ∀ field ∈ first, field.Resolves pool) (h : Meets pool second left) :
    Meets pool (first ++ second) (written first ++ left) := by
  obtain ⟨hsecond, rest, rfl⟩ | ⟨e, hbreaks⟩ := h
  · refine .inl ⟨List.forall_mem_append.mpr ⟨hfirst, hsecond⟩, rest, ?_⟩
    rw [written_append, List.append_assoc]
  · exact .inr ⟨e, hbreaks.prepend hfirst⟩

/-- The fields that the bytes go along are found part by part, each part from the bytes that the part
before it leaves. -/
theorem Meets.exists_append {first : List Field} {bs : Bytes} {Form : List Field → Prop}
    (hfirst : Meets pool first bs)
    (hnext : ∀ left, left.length ≤ bs.length → ∃ second, Form second ∧ Meets pool second left) :
    ∃ second, Form second ∧ Meets pool (first ++ second) bs := by
  obtain ⟨hresolves, left, rfl⟩ | ⟨e, hbreaks⟩ := hfirst
  · obtain ⟨second, hform, hsecond⟩ := hnext left (by rw [List.length_append]; omega)
    exact ⟨second, hform, hsecond.prepend hresolves⟩
  · obtain ⟨second, hform, -⟩ := hnext [] (Nat.zero_le _)
    exact ⟨second, hform, .inr ⟨e, hbreaks.append second⟩⟩

theorem short_or_word (bs : Bytes) :
    bs.length < 2 ∨ ∃ (n : UInt16) (rest : Bytes), bs = bigEndian 2 n.toNat ++ rest := by
  cases h : u2 bs with
  | ok got => exact .inr ⟨got.1, got.2, u2_eq_ok_iff.mp h⟩
  | error e =>
    refine .inl (Nat.lt_of_not_le fun hlong => ?_)
    obtain ⟨a, b, rest, rfl⟩ : ∃ a b rest, bs = a :: b :: rest :=
      match bs, hlong with
      | a :: b :: rest, _ => ⟨a, b, rest, rfl⟩
    rw [u2] at h
    cases h

theorem exists_number (bs : Bytes) : ∃ n : UInt16, Meets pool [.number n] bs := by
  obtain hshort | ⟨n, rest, rfl⟩ := short_or_word bs
  · exact ⟨0, .inr ⟨_, .here (.ends hshort)⟩⟩
  · exact ⟨n, .inl ⟨List.forall_mem_singleton.mpr trivial, rest, rfl⟩⟩

theorem exists_type (bs : Bytes) : ∃ index : UInt16, Meets pool [.type index] bs := by
  obtain hshort | ⟨index, rest, rfl⟩ := short_or_word bs
  · exact ⟨0, .inr ⟨_, .here (.ends hshort)⟩⟩
  · refine ⟨index, ?_⟩
    by_cases htext : ∃ text, pool.utf8 index = .ok text
    · exact .inl ⟨List.forall_mem_singleton.mpr htext, rest, rfl⟩
    · exact .inr ⟨_, .here (.noText fun text h => htext ⟨text, h⟩)⟩

section Below

-- That a value is found in fewer bytes is the induction hypothesis of `exists_value`; the counted parts
-- around it are found from that.
variable {bound : Nat}
  (hvalue : ∀ bs : Bytes, bs.length ≤ bound → ∃ fields, ValueForm fields ∧ Meets pool fields bs)
include hvalue

theorem exists_values (count : Nat) :
    ∀ bs : Bytes, bs.length ≤ bound → ∃ fields, ValuesForm count fields ∧ Meets pool fields bs := by
  induction count with
  | zero => exact fun bs _ => ⟨[], .nil, meets_nil bs⟩
  | succ count ih =>
    intro bs hbs
    obtain ⟨value, hform, hmeets⟩ := hvalue bs hbs
    obtain ⟨values, hforms, hall⟩ := hmeets.exists_append fun left hleft => ih left (Nat.le_trans hleft hbs)
    exact ⟨value ++ values, .cons hform hforms, hall⟩

theorem exists_pairs (count : Nat) :
    ∀ bs : Bytes, bs.length ≤ bound → ∃ fields, PairsForm count fields ∧ Meets pool fields bs := by
  induction count with
  | zero => exact fun bs _ => ⟨[], .nil, meets_nil bs⟩
  | succ count ih =>
    intro bs hbs
    obtain ⟨name, hname⟩ := exists_number bs
    have hrest (left : Bytes) (hleft : left.length ≤ bs.length) : ∃ fields,
        (∃ value pairs, ValueForm value ∧ PairsForm count pairs ∧ fields = value ++ pairs) ∧
          Meets pool fields left := by
      obtain ⟨value, hform, hmeets⟩ := hvalue left (Nat.le_trans hleft hbs)
      obtain ⟨pairs, hforms, hall⟩ :=
        hmeets.exists_append fun next hnext => ih next (Nat.le_trans hnext (Nat.le_trans hleft hbs))
      exact ⟨value ++ pairs, ⟨value, pairs, hform, hforms, rfl⟩, hall⟩
    obtain ⟨_, ⟨value, pairs, hform, hforms, rfl⟩, hall⟩ := hname.exists_append hrest
    exact ⟨.number name :: (value ++ pairs), .cons hform hforms, hall⟩

theorem exists_annotation (bs : Bytes) (hbs : bs.length ≤ bound) :
    ∃ fields, (∃ type, AnnotationForm type fields) ∧ Meets pool fields bs := by
  have hbehind (left : Bytes) (hleft : left.length ≤ bs.length) : ∃ fields,
      (∃ count pairs, PairsForm (UInt16.toNat count) pairs ∧ fields = .number count :: pairs) ∧
        Meets pool fields left := by
    obtain ⟨count, hcount⟩ := exists_number left
    obtain ⟨pairs, hforms, hall⟩ := hcount.exists_append fun next hnext =>
      exists_pairs hvalue count.toNat next (Nat.le_trans hnext (Nat.le_trans hleft hbs))
    exact ⟨_, ⟨count, pairs, hforms, rfl⟩, hall⟩
  obtain ⟨type, htype⟩ := exists_type bs
  obtain ⟨_, ⟨count, pairs, hforms, rfl⟩, hall⟩ := htype.exists_append hbehind
  exact ⟨_, ⟨type, .intro hforms⟩, hall⟩

end Below

/-- The tags that announce a layout. -/
def tagsOf : ValueLayout → List UInt8
  | .constant =>
    [.byte, .char, .double, .float, .int, .long, .short, .boolean, .string, .type].map
      fun kind : Literal => tagOf kind.letter
  | .enumeration => [tagOf 'e']
  | .nested => [tagOf '@']
  | .array => [tagOf '[']

theorem mem_tagsOf {tag : UInt8} {layout : ValueLayout} (h : ValueLayout.ofTag? tag = some layout) :
    tag ∈ tagsOf layout := by
  have hall : ∀ n : Fin 256, ∀ layout ∈ ValueLayout.ofTag? (UInt8.ofFin n),
      UInt8.ofFin n ∈ tagsOf layout := by
    decide +kernel
  exact hall tag.toFin layout h

theorem exists_content {tag : UInt8} {layout : ValueLayout} (h : ValueLayout.ofTag? tag = some layout)
    {rest : Bytes} (hvalue : ∀ bs : Bytes, bs.length ≤ rest.length →
      ∃ fields, ValueForm fields ∧ Meets pool fields bs) :
    ∃ content, ValueForm (.tag tag :: content) ∧ Meets pool content rest := by
  have htag := mem_tagsOf h
  cases layout with
  | constant =>
    obtain ⟨kind, -, rfl⟩ := List.mem_map.mp htag
    obtain ⟨n, hn⟩ := exists_number rest
    exact ⟨[.number n], .literal kind n, hn⟩
  | enumeration =>
    rw [List.mem_singleton.mp htag]
    obtain ⟨type, htype⟩ := exists_number rest
    have hname (left : Bytes) (_ : left.length ≤ rest.length) :
        ∃ fields, (∃ name, fields = [.number name]) ∧ Meets pool fields left := by
      obtain ⟨name, h⟩ := exists_number left
      exact ⟨[.number name], ⟨name, rfl⟩, h⟩
    obtain ⟨_, ⟨name, rfl⟩, hall⟩ := htype.exists_append hname
    exact ⟨_, .enumeration type name, hall⟩
  | nested =>
    rw [List.mem_singleton.mp htag]
    obtain ⟨fields, ⟨type, hform⟩, hall⟩ := exists_annotation hvalue rest (Nat.le_refl _)
    exact ⟨fields, .nested hform, hall⟩
  | array =>
    rw [List.mem_singleton.mp htag]
    obtain ⟨count, hcount⟩ := exists_number rest
    obtain ⟨values, hforms, hall⟩ := hcount.exists_append (exists_values hvalue count.toNat)
    exact ⟨_, .array hforms, hall⟩

theorem exists_value (bs : Bytes) : ∃ fields, ValueForm fields ∧ Meets pool fields bs := by
  induction hlength : bs.length using Nat.strongRecOn generalizing bs with
  | _ length ih =>
    cases bs with
    | nil => exact ⟨_, .literal .int 0, .inr ⟨_, .here (.ends Nat.one_pos)⟩⟩
    | cons tag rest =>
      cases hlayout : ValueLayout.ofTag? tag with
      | none =>
        have hunknown := (ofTag?_eq_none_iff tag).mp hlayout
        exact ⟨_, .literal .int 0, .inr ⟨_, .here (.unknownTag hunknown)⟩⟩
      | some layout =>
        have hbelow (left : Bytes) (hleft : left.length ≤ rest.length) :
            ∃ fields, ValueForm fields ∧ Meets pool fields left := by
          refine ih left.length ?_ left rfl
          rw [← hlength, List.length_cons]
          omega
        obtain ⟨content, hform, hmeets⟩ := exists_content hlayout hbelow
        have htag : ∀ field ∈ [Field.tag tag], field.Resolves pool :=
          List.forall_mem_singleton.mpr trivial
        exact ⟨_, hform, hmeets.prepend htag⟩

theorem exists_annotations (count : Nat) (bs : Bytes) :
    ∃ fields, (∃ types, types.length = count ∧ AnnotationsForm types fields) ∧ Meets pool fields bs := by
  induction count generalizing bs with
  | zero => exact ⟨[], ⟨[], rfl, .nil⟩, meets_nil bs⟩
  | succ count ih =>
    obtain ⟨fields, ⟨type, hform⟩, hmeets⟩ :=
      exists_annotation (fun bs _ => exists_value bs) bs (Nat.le_refl _)
    obtain ⟨more, ⟨types, hlength, hforms⟩, hall⟩ := hmeets.exists_append fun left _ => ih left
    exact ⟨fields ++ more, ⟨type :: types, congrArg (· + 1) hlength, .cons hform hforms⟩, hall⟩

theorem exists_list (bs : Bytes) : ∃ types fields, ListForm types fields ∧ Meets pool fields bs := by
  obtain ⟨count, hcount⟩ := exists_number bs
  obtain ⟨fields, ⟨types, hlength, hforms⟩, hall⟩ :=
    hcount.exists_append fun left _ => exists_annotations count.toNat left
  exact ⟨types, _, .intro hforms hlength, hall⟩

variable {bs rest : Bytes}

/-- A reader that follows the fields has taken them where it gave a value. -/
theorem Follows.of_ok {got : α} (h : Follows pool reader fields value) (hmeets : Meets pool fields bs)
    (hok : reader bs = .ok (got, rest)) :
    got = value ∧ bs = written fields ++ rest ∧ ∀ field ∈ fields, field.Resolves pool := by
  obtain ⟨hresolves, left, rfl⟩ | ⟨e, hbreaks⟩ := hmeets
  · rw [h.takes hresolves left, Except.ok.injEq, Prod.mk.injEq] at hok
    obtain ⟨rfl, rfl⟩ := hok
    exact ⟨rfl, rfl, hresolves⟩
  · rw [h.breaks hbreaks] at hok
    cases hok

theorem Follows.of_error {e : ClassFileError} (h : Follows pool reader fields value)
    (hmeets : Meets pool fields bs) (herror : reader bs = .error e) : Breaks pool fields bs e := by
  obtain ⟨hresolves, left, rfl⟩ | ⟨e', hbreaks⟩ := hmeets
  · rw [h.takes hresolves left] at herror
    cases herror
  · rw [h.breaks hbreaks] at herror
    cases herror
    exact hbreaks

/-! ### How far apart tags are -/

/-- Behind every tag stands a field that is none. -/
inductive Spaced : List Field → Prop
  | nil : Spaced []
  | other {field : Field} {fields : List Field} (hfield : field.isTag = false) (h : Spaced fields) :
      Spaced (field :: fields)
  | tag {byte : UInt8} {field : Field} {fields : List Field} (hfield : field.isTag = false)
      (h : Spaced fields) : Spaced (.tag byte :: field :: fields)

theorem Spaced.append {first second : List Field} (hfirst : Spaced first) (hsecond : Spaced second) :
    Spaced (first ++ second) := by
  induction hfirst with
  | nil => exact hsecond
  | other hfield _ ih => exact .other hfield ih
  | tag hfield _ ih => exact .tag hfield ih

mutual
theorem ValueForm.spaced : ∀ {fields : List Field}, ValueForm fields → Spaced fields
  | _, .literal _ _ => .tag rfl .nil
  | _, .enumeration _ _ => .tag rfl (.other rfl .nil)
  | _, .nested (.intro hpairs) => .tag rfl (.other rfl hpairs.spaced)
  | _, .array hvalues => .tag rfl hvalues.spaced
theorem ValuesForm.spaced : ∀ {count : Nat} {fields : List Field}, ValuesForm count fields → Spaced fields
  | _, _, .nil => .nil
  | _, _, .cons hvalue hvalues => hvalue.spaced.append hvalues.spaced
theorem PairsForm.spaced : ∀ {count : Nat} {fields : List Field}, PairsForm count fields → Spaced fields
  | _, _, .nil => .nil
  | _, _, .cons hvalue hpairs => .other rfl (hvalue.spaced.append hpairs.spaced)
end

theorem AnnotationsForm.spaced {types : List UInt16} {fields : List Field}
    (h : AnnotationsForm types fields) : Spaced fields := by
  induction h with
  | nil => exact .nil
  | cons h _ ih =>
    cases h with
    | intro hpairs => exact .other rfl (.other rfl (hpairs.spaced.append ih))

theorem ListForm.spaced {types : List UInt16} {fields : List Field} (h : ListForm types fields) :
    Spaced fields := by
  cases h with
  | intro h _ => exact .other rfl h.spaced

/-- The number of values that the fields begin. -/
def begun (fields : List Field) : Nat := fields.countP Field.isTag

theorem begun_tag (byte : UInt8) (fields : List Field) : begun (.tag byte :: fields) = begun fields + 1 :=
  List.countP_cons_of_pos rfl

theorem begun_other {field : Field} (h : field.isTag = false) (fields : List Field) :
    begun (field :: fields) = begun fields :=
  List.countP_cons_of_neg (by rw [h]; exact Bool.false_ne_true)

theorem length_written_tag (byte : UInt8) (fields : List Field) :
    (written (.tag byte :: fields)).length = (written fields).length + 1 := rfl

theorem length_written_other {field : Field} (h : field.isTag = false) (fields : List Field) :
    (written (field :: fields)).length = (written fields).length + 2 := by
  cases field with
  | number value => rfl
  | type index => rfl
  | tag byte => cases h

theorem Spaced.begun_le {fields : List Field} (h : Spaced fields) :
    3 * begun fields ≤ (written fields).length := by
  induction h with
  | nil => exact Nat.le_refl 0
  | other hfield _ ih =>
    rw [begun_other hfield, length_written_other hfield]
    omega
  | tag hfield _ ih =>
    rw [begun_tag, begun_other hfield, length_written_tag, length_written_other hfield]
    omega

/-- On the way the last value may only have been begun. -/
theorem Spaced.begun_le_of_append {before after : List Field} (h : Spaced (before ++ after)) :
    3 * begun before ≤ (written before).length + 2 := by
  generalize hall : before ++ after = fields at h
  induction h generalizing before with
  | nil =>
    rw [(List.append_eq_nil_iff.mp hall).1]
    decide
  | other hfield _ ih =>
    cases before with
    | nil => decide
    | cons first before =>
      rw [List.cons_append, List.cons.injEq] at hall
      obtain ⟨rfl, hall⟩ := hall
      have hle := ih hall
      rw [begun_other hfield, length_written_other hfield]
      omega
  | tag hfield _ ih =>
    match before, hall with
    | [], _ => decide
    | [first], hall =>
      rw [List.singleton_append, List.cons.injEq] at hall
      obtain ⟨rfl, -⟩ := hall
      exact Nat.le_refl 3
    | first :: second :: before, hall =>
      rw [List.cons_append, List.cons_append, List.cons.injEq, List.cons.injEq] at hall
      obtain ⟨rfl, rfl, hrest⟩ := hall
      have hle := ih hrest
      rw [begun_tag, begun_other hfield, length_written_tag, length_written_other hfield]
      omega

theorem ValueForm.begun_pos {fields : List Field} (h : ValueForm fields) : 0 < begun fields := by
  cases h <;> rw [begun_tag] <;> exact Nat.succ_pos _

/-! ### Lists of annotations -/

theorem breaks_iff {fields : List Field} {bs : Bytes} {e : ClassFileError} :
    Breaks pool fields bs e ↔ ∃ before field after left, fields = before ++ field :: after ∧
      bs = written before ++ left ∧ (∀ done ∈ before, done.Resolves pool) ∧ field.Offends pool left e := by
  constructor
  · intro h
    induction h with
    | @here field fields bs e h => exact ⟨[], field, fields, bs, rfl, rfl, fun _ hin => (nomatch hin), h⟩
    | @behind first fields bs e hfirst _ ih =>
      obtain ⟨before, field, after, left, rfl, rfl, hbefore, h⟩ := ih
      exact ⟨first :: before, field, after, left, rfl, (List.append_assoc ..).symm,
        List.forall_mem_cons.mpr ⟨hfirst, hbefore⟩, h⟩
  · rintro ⟨before, field, after, left, rfl, rfl, hbefore, h⟩
    exact Breaks.prepend hbefore (.here h)

theorem AnnotationForm.type_mem {type : UInt16} {fields : List Field} (h : AnnotationForm type fields) :
    Field.type type ∈ fields := by
  cases h with
  | intro hpairs => exact List.mem_cons_self

/-- The types of the outermost annotations are texts if all types are. -/
theorem AnnotationsForm.map_utf8 {types : List UInt16} {fields : List Field}
    (h : AnnotationsForm types fields) (hresolves : ∀ field ∈ fields, field.Resolves pool) :
    types.map pool.utf8 = (types.map (typeText pool)).map .ok := by
  induction h with
  | nil => rfl
  | @cons type types fields more h _ ih =>
    obtain ⟨hfields, hmore⟩ := List.forall_mem_append.mp hresolves
    rw [List.map_cons, List.map_cons, List.map_cons, ih hmore, utf8_typeText (hfields _ h.type_mem)]

theorem ListForm.map_utf8 {types : List UInt16} {fields : List Field} (h : ListForm types fields)
    (hresolves : ∀ field ∈ fields, field.Resolves pool) :
    types.map pool.utf8 = (types.map (typeText pool)).map .ok := by
  cases h with
  | intro h _ => exact h.map_utf8 (List.forall_mem_cons.mp hresolves).2

/-- A list of annotations is taken exactly where the bytes begin with the fields of one whose types are all
texts, and the outermost types are given. Otherwise the first field that offends gives the error. Lists of
the same types give the same whatever else they hold and whatever stands behind. A value takes three bytes
at least, so there are never more values begun than a third of the bytes allows. -/
theorem readList_exact (pool : ConstantPool) :
    (∀ bs texts rest, readList pool bs = .ok (texts, rest) ↔
      ∃ types fields, ListForm types fields ∧ bs = written fields ++ rest ∧
        (∀ field ∈ fields, field.Resolves pool) ∧ types.map pool.utf8 = texts.map .ok) ∧
    (∀ bs e, readList pool bs = .error e ↔
      ∃ types before field after left, ListForm types (before ++ field :: after) ∧
        bs = written before ++ left ∧ (∀ done ∈ before, done.Resolves pool) ∧
        field.Offends pool left e) ∧
    (∀ types fields others, ListForm types fields → ListForm types others →
      (∀ field ∈ fields ++ others, field.Resolves pool) →
      ∃ texts, (∀ rest, readList pool (written fields ++ rest) = .ok (texts, rest)) ∧
        ∀ rest, readList pool (written others ++ rest) = .ok (texts, rest)) ∧
    (∀ bs rest, skip pool [.values 1] bs = .ok ((), rest) →
      ∃ fields, ValueForm fields ∧ bs = written fields ++ rest ∧
        (∀ field ∈ fields, field.Resolves pool) ∧ 3 * begun fields ≤ (written fields).length ∧
        rest.length + 3 ≤ bs.length) ∧
    ∀ types before after, ListForm types (before ++ after) →
      3 * begun before ≤ (written before).length + 2 := by
  refine ⟨?_, ?_, ?_, ?_, ?_⟩
  · intro bs texts rest
    constructor
    · intro h
      obtain ⟨types, fields, hform, hmeets⟩ := exists_list bs
      obtain ⟨rfl, hbytes, hresolves⟩ := hform.follows.of_ok hmeets h
      exact ⟨types, fields, hform, hbytes, hresolves, hform.map_utf8 hresolves⟩
    · rintro ⟨types, fields, hform, rfl, hresolves, htexts⟩
      have hsame : types.map (typeText pool) = texts := by
        rw [hform.map_utf8 hresolves] at htexts
        exact (List.map_inj_right fun _ _ => Except.ok.inj).mp htexts
      rw [← hsame]
      exact hform.follows.takes hresolves rest
  · intro bs e
    constructor
    · intro h
      obtain ⟨types, fields, hform, hmeets⟩ := exists_list bs
      obtain ⟨before, field, after, left, rfl, hbytes, hbefore, hoffends⟩ :=
        breaks_iff.mp (hform.follows.of_error hmeets h)
      exact ⟨types, before, field, after, left, hform, hbytes, hbefore, hoffends⟩
    · rintro ⟨types, before, field, after, left, hform, hbytes, hbefore, hoffends⟩
      exact hform.follows.breaks
        (breaks_iff.mpr ⟨before, field, after, left, rfl, hbytes, hbefore, hoffends⟩)
  · intro types fields others hfields hothers hresolves
    obtain ⟨hfirst, hsecond⟩ := List.forall_mem_append.mp hresolves
    exact ⟨types.map (typeText pool), hfields.follows.takes hfirst, hothers.follows.takes hsecond⟩
  · intro bs rest h
    obtain ⟨fields, hform, hmeets⟩ := exists_value bs
    obtain ⟨-, rfl, hresolves⟩ := hform.follows.of_ok hmeets h
    have hle := hform.spaced.begun_le
    have hpos := hform.begun_pos
    refine ⟨fields, hform, rfl, hresolves, hle, ?_⟩
    rw [List.length_append]
    omega
  · intro types before after hform
    exact hform.spaced.begun_le_of_append

/-- One annotation up to the last tag in it: its value is an array that begins with an annotation. -/
def sampleFront : List Field :=
  [.number 1, .type 5, .number 1, .number 7, .tag (tagOf '['), .number 2, .tag (tagOf '@'), .type 5,
    .number 0]

theorem sample_form : ListForm [5] (sampleFront ++ .tag (tagOf 'I') :: [.number 9]) := by
  have hinner : AnnotationForm 5 [.type 5, .number 0] := @AnnotationForm.intro 5 0 [] .nil
  have hvalues : ValuesForm 2 _ := .cons (.nested hinner) (.cons (.literal .int 9) .nil)
  have hpairs : PairsForm 1 _ := @PairsForm.cons 0 7 _ _ (@ValueForm.array 2 _ hvalues) .nil
  have hlist : AnnotationsForm [5] _ := .cons (@AnnotationForm.intro 5 1 _ hpairs) .nil
  exact @ListForm.intro 1 _ _ hlist rfl

/-- The annotation is read, and a byte behind it is left. With a tag that is not known in the place of the
last one, that tag is the error. -/
theorem readList_exact_sample :
    readList (Layout.table Layout.ClassFile.samplePool)
        (written sampleFront ++ [73, 0, 9, 0xFF]) = .ok (["LMark;"], [0xFF]) ∧
      readList (Layout.table Layout.ClassFile.samplePool) (written sampleFront ++ [120, 0, 9]) =
        .error (.invalidElementTag 120) ∧
      3 * begun sampleFront ≤ (written sampleFront).length + 2 := by
  obtain ⟨htaken, hbroken, -, -, hbegun⟩ := readList_exact (Layout.table Layout.ClassFile.samplePool)
  have hmark : (Layout.table Layout.ClassFile.samplePool).utf8 5 = .ok "LMark;" :=
    Layout.ClassFile.sampleMark.utf8_index.trans (congrArg Except.ok (ModifiedUtf8.decode_encode _))
  have hfront : ∀ field ∈ sampleFront,
      field.Resolves (Layout.table Layout.ClassFile.samplePool) := by
    simp [sampleFront, Field.Resolves, hmark]
  refine ⟨(htaken _ _ _).mpr ?_, (hbroken _ _).mpr ?_, hbegun _ _ _ sample_form⟩
  · refine ⟨[5], _, sample_form, by decide, ?_, by rw [List.map_singleton, hmark]; rfl⟩
    exact List.forall_mem_append.mpr ⟨hfront, by simp [Field.Resolves]⟩
  · exact ⟨[5], sampleFront, _, _, [120, 0, 9], sample_form, rfl, hfront, .unknownTag (by decide)⟩

end ClassReport.Annotations
