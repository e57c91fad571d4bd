import ClassReport.ClassRecord.OfClassFile
import ClassReport.Proofs.SignatureGrammar
import ClassReport.Proofs.TableWriting

/-!
# Whole types and types with more behind them

A field type and an annotation's type are read by a reader that takes a type off the front and never
asks what is left. `Overlong` texts, a type with more behind it, are the ones that this lets through:
`overlong_iff` says that whole texts alone are taken for types, that annotation names are the words of
whole types or dotted texts, and that fields ignore a signature that is no whole type, exactly where a
text is not overlong. That no accident makes up for it, as a dotted text that reads like the type in
front of it, is `ne_binaryName`: the words for a type have no semicolon and start in lower case where
the type itself has none.
-/

namespace ClassReport

namespace Signature

variable {cs front rest : List Char} {r d : String}

/-- A type with more behind it. -/
def Overlong (cs : List Char) : Prop :=
  ∃ (front rest : List Char) (r : String), cs = front ++ rest ∧ TypeForm front r ∧ rest ≠ []

/-! ### What the reader of field types makes of a text -/

theorem renderFieldType_eq_ok_iff :
    renderFieldType d = .ok r ↔ ∃ front rest, d.toList = front ++ rest ∧ TypeForm front r := by
  have hread : renderFieldType d = .ok r ↔
      ∃ type, (∃ rest, type? d.toList = some (type, rest)) ∧ type.render = r := by
    rw [renderFieldType, parse?_eq]
    cases type? d.toList with
    | none => simp
    | some got => simp [Prod.ext_iff]
  rw [hread]
  constructor
  · rintro ⟨type, ⟨rest, htype⟩, hrender⟩
    obtain ⟨front, hd, hform⟩ := type?_iff.mp ⟨type, htype, hrender⟩
    exact ⟨front, rest, hd, hform⟩
  · rintro ⟨front, rest, hd, hform⟩
    obtain ⟨type, htype, hrender⟩ := type?_iff.mpr ⟨front, hd, hform⟩
    exact ⟨type, ⟨rest, htype⟩, hrender⟩

theorem renderFieldType_eq_error
    (h : ∀ front rest r, d.toList = front ++ rest → ¬ TypeForm front r) :
    renderFieldType d = .error ⟨d⟩ := by
  have hnot (r : String) : renderFieldType d ≠ .ok r := by
    intro hok
    obtain ⟨front, rest, hd, hform⟩ := renderFieldType_eq_ok_iff.mp hok
    exact h front rest r hd hform
  rw [renderFieldType] at hnot ⊢
  cases hparse : JavaType.parse? d.toList with
  | none => rfl
  | some type =>
    rw [hparse] at hnot
    exact absurd rfl (hnot type.render)

theorem renderFieldType_of_append (hd : d.toList = front ++ rest) (h : TypeForm front r) :
    renderFieldType d = .ok r :=
  renderFieldType_eq_ok_iff.mpr ⟨front, rest, hd, h⟩

theorem annotationName_of_ok (h : renderFieldType d = .ok r) : annotationName d = r := by
  rw [annotationName, h]

theorem annotationName_of_error (h : renderFieldType d = .error ⟨d⟩) :
    annotationName d = binaryName d := by
  rw [annotationName, h]

theorem fieldType_of_ok {member : Member} (hd : member.signature = some d)
    (h : renderFieldType d = .ok r) : member.fieldType = r := by
  rw [Member.fieldType, hd, Option.map_some, h]

theorem toFieldRecord_of_error {member : Member} (hd : member.signature = some d)
    (h : renderFieldType d = .error ⟨d⟩) :
    member.toFieldRecord = { member with signature := none }.toFieldRecord := by
  simp only [Member.toFieldRecord, Member.fieldType, hd, Option.map_some, h, Option.map_none]

/-! ### Words that a dotted text cannot be -/

theorem semicolon_mem_binaryName {name : List Char} :
    ';' ∈ (binaryName (String.ofList name)).toList ↔ ';' ∈ name := by
  rw [binaryName_ofList, String.toList_ofList, List.mem_map]
  constructor
  · rintro ⟨c, hc, heq⟩
    split at heq
    · exact absurd heq (by decide)
    · exact heq ▸ hc
  · intro h
    exact ⟨';', h, by decide⟩

theorem semicolon_notMem_intercalate {separator : String} {rs : List String}
    (hseparator : ';' ∉ separator.toList) (h : ∀ r ∈ rs, ';' ∉ r.toList) :
    ';' ∉ (separator.intercalate rs).toList := by
  intro hmem
  rcases TableFormat.mem_intercalate hmem with hmem | ⟨r, hr, hmem⟩
  · exact hseparator hmem
  · exact h r hr hmem

theorem semicolon_notMem_append {first second : String} (h : ';' ∉ first.toList)
    (h' : ';' ∉ second.toList) : ';' ∉ (first ++ second).toList := by
  rw [String.toList_append, List.mem_append, not_or]
  exact ⟨h, h'⟩

mutual
theorem TypeForm.notMem : ∀ {cs : List Char} {r : String}, TypeForm cs r → ';' ∉ r.toList
  | _, _, .primitive p => by cases p <;> decide
  | _, _, .array h => semicolon_notMem_append h.notMem (by decide)
  | _, _, .variable _ hfree => by rwa [String.toList_ofList]
  | _, _, .object h => semicolon_notMem_intercalate (by decide) h.notMem
theorem SegmentsForm.notMem : ∀ {cs : List Char} {rs : List String}, SegmentsForm cs rs →
    ∀ r ∈ rs, ';' ∉ r.toList
  | _, _, .last h => by simpa using h.notMem
  | _, _, .more h hs => List.forall_mem_cons.mpr ⟨h.notMem, hs.notMem⟩
theorem SegmentForm.notMem : ∀ {cs : List Char} {r : String}, SegmentForm cs r → ';' ∉ r.toList
  | _, _, .plain hname => fun hmem => (hname.free _ (semicolon_mem_binaryName.mp hmem)).1 rfl
  | _, _, .generic hname h =>
    semicolon_notMem_append
      (fun hmem => (hname.free _ (semicolon_mem_binaryName.mp hmem)).1 rfl)
      (semicolon_notMem_append
        (semicolon_notMem_append (by decide) (semicolon_notMem_intercalate (by decide) h.notMem))
        (by decide))
theorem ArgumentsForm.notMem : ∀ {cs : List Char} {rs : List String}, ArgumentsForm cs rs →
    ∀ r ∈ rs, ';' ∉ r.toList
  | _, _, .nil => by simp
  | _, _, .wildcard h => List.forall_mem_cons.mpr ⟨by decide, h.notMem⟩
  | _, _, .extends ht h =>
    List.forall_mem_cons.mpr ⟨semicolon_notMem_append (by decide) ht.notMem, h.notMem⟩
  | _, _, .super ht h =>
    List.forall_mem_cons.mpr ⟨semicolon_notMem_append (by decide) ht.notMem, h.notMem⟩
  | _, _, .exact ht h => List.forall_mem_cons.mpr ⟨ht.notMem, h.notMem⟩
end

/-- A type without a semicolon is a primitive or arrays of one, and starts with a capital letter or a
bracket where its words start with a small letter. -/
theorem TypeForm.semicolon_or_starts : ∀ {cs : List Char} {r : String}, TypeForm cs r →
    ';' ∈ cs ∨ (∃ c words, r.toList = c :: words ∧ c.isLower) ∧
      ∃ c others, cs = c :: others ∧ c.isLower = false ∧ c ≠ '/'
  | _, _, .primitive p =>
    Or.inr ⟨by cases p <;> exact ⟨_, _, rfl, by decide⟩, p.letter, [], rfl, by cases p <;> decide,
      by cases p <;> decide⟩
  | _, _, .array h => by
    rcases h.semicolon_or_starts with hmem | ⟨⟨c, words, hr, hc⟩, -⟩
    · exact Or.inl (List.mem_cons_of_mem _ hmem)
    · refine Or.inr ⟨⟨c, words ++ ['[', ']'], ?_, hc⟩, '[', _, rfl, by decide, by decide⟩
      rw [String.toList_append, hr]
      rfl
  | _, _, .variable _ _ => Or.inl (by simp)
  | _, _, .object _ => Or.inl (by simp)

/-- The words for a type are not the dotted text of it, whatever follows. -/
theorem ne_binaryName (h : TypeForm front r) (rest : List Char) :
    r ≠ binaryName (String.ofList (front ++ rest)) := by
  intro heq
  rcases h.semicolon_or_starts with hmem | ⟨⟨c, words, hr, hlower⟩, d, others, hfront, hd, hslash⟩
  · have hdotted := semicolon_mem_binaryName.mpr (List.mem_append_left rest hmem)
    rw [← heq] at hdotted
    exact h.notMem hdotted
  · rw [heq, binaryName_ofList, String.toList_ofList, hfront, List.cons_append, List.map_cons,
      if_neg hslash] at hr
    injection hr with hfirst _
    rw [← hfirst, hd] at hlower
    cases hlower

/-! ### Overlong texts -/

/-- Nothing but a whole type is taken for one. -/
def TakesWhole (d : String) : Prop := ∀ r, renderFieldType d = .ok r → TypeForm d.toList r

/-- An annotation is called by the words for a whole type, or by the dotted text. -/
def NamesWhole (d : String) : Prop :=
  (∀ r, TypeForm d.toList r → annotationName d = r) ∧
    ((∀ r, ¬ TypeForm d.toList r) → annotationName d = binaryName d)

/-- A field whose signature is no whole type is reported as if it had none. -/
def IgnoresParts (d : String) : Prop :=
  (∀ r, ¬ TypeForm d.toList r) → ∀ member : Member, member.signature = some d →
    member.toFieldRecord = { member with signature := none }.toFieldRecord

theorem Overlong.not_form (h : Overlong cs) (r : String) : ¬ TypeForm cs r := by
  obtain ⟨front, rest, words, rfl, hfront, hrest⟩ := h
  intro hwhole
  have heq : front ++ rest = (front ++ rest) ++ [] := (List.append_nil _).symm
  obtain ⟨hsame, -⟩ := hfront.eq_of_append_eq hwhole heq
  exact hrest (List.self_eq_append_right.mp hsame)

/-- A text is a whole type, or one with more behind it, or starts with none. -/
theorem whole_or_overlong_or_none (cs : List Char) :
    (∃ r, TypeForm cs r) ∨ Overlong cs ∨
      ∀ (front rest : List Char) (r : String), cs = front ++ rest → ¬ TypeForm front r := by
  by_cases hsome : ∃ (front rest : List Char) (r : String), cs = front ++ rest ∧ TypeForm front r
  · obtain ⟨front, rest, r, hcs, hform⟩ := hsome
    cases rest with
    | nil => exact Or.inl ⟨r, by rwa [hcs, List.append_nil]⟩
    | cons c rest => exact Or.inr (Or.inl ⟨front, c :: rest, r, hcs, hform, List.cons_ne_nil _ _⟩)
  · refine Or.inr (Or.inr fun front rest r hcs hform => ?_)
    exact hsome ⟨front, rest, r, hcs, hform⟩

theorem takesWhole_iff : TakesWhole d ↔ ¬ Overlong d.toList := by
  constructor
  · rintro h hover
    obtain ⟨front, rest, r, hd, hform, -⟩ := id hover
    exact hover.not_form r (h r (renderFieldType_of_append hd hform))
  · intro h r hok
    obtain ⟨front, rest, hd, hform⟩ := renderFieldType_eq_ok_iff.mp hok
    cases rest with
    | nil => rwa [hd, List.append_nil]
    | cons c rest => exact absurd ⟨front, c :: rest, r, hd, hform, List.cons_ne_nil _ _⟩ h

/-- A text that is neither a whole type nor overlong is refused. -/
theorem renderFieldType_of_not_overlong (h : ¬ Overlong d.toList)
    (hnone : ∀ r, ¬ TypeForm d.toList r) : renderFieldType d = .error ⟨d⟩ := by
  rcases whole_or_overlong_or_none d.toList with ⟨r, hwhole⟩ | hover | hstart
  · exact absurd hwhole (hnone r)
  · exact absurd hover h
  · exact renderFieldType_eq_error hstart

theorem renderFieldType_of_form (h : TypeForm d.toList r) : renderFieldType d = .ok r :=
  renderFieldType_of_append (List.append_nil _).symm h

theorem namesWhole_iff : NamesWhole d ↔ ¬ Overlong d.toList := by
  constructor
  · rintro ⟨-, hdotted⟩ hover
    obtain ⟨front, rest, r, hd, hform, -⟩ := id hover
    have hname := annotationName_of_ok (renderFieldType_of_append hd hform)
    rw [hdotted hover.not_form, ← String.ofList_toList (s := d), hd] at hname
    exact ne_binaryName hform rest hname.symm
  · intro h
    refine ⟨fun r hform => annotationName_of_ok (renderFieldType_of_form hform), fun hnone => ?_⟩
    exact annotationName_of_error (renderFieldType_of_not_overlong h hnone)

theorem ignoresParts_iff : IgnoresParts d ↔ ¬ Overlong d.toList := by
  constructor
  · rintro h hover
    obtain ⟨front, rest, r, hd, hform, -⟩ := id hover
    have hread := renderFieldType_of_append hd hform
    -- Two fields with this signature would have the types of their different descriptors.
    have htype (descriptor : String) (type : String) (ht : renderFieldType descriptor = .ok type) :
        r = type := by
      have hrecord := h hover.not_form ⟨⟨0⟩, "", descriptor, some d, [], []⟩ rfl
      have htypes := congrArg FieldRecord.type hrecord
      rw [Member.toFieldRecord, Member.toFieldRecord, fieldType_of_ok rfl hread] at htypes
      rwa [Member.fieldType, Option.map_none, ht] at htypes
    have hint : r = "int" :=
      htype "I" "int" (renderFieldType_of_form (.primitive .int))
    have hlong : r = "long" :=
      htype "J" "long" (renderFieldType_of_form (.primitive .long))
    exact absurd (hint.symm.trans hlong) (by decide)
  · intro h hnone member hd
    exact toFieldRecord_of_error hd (renderFieldType_of_not_overlong h hnone)

/-- What a text that starts with a type is taken for, and one that starts with none: only whole
types are types, name annotations and type fields exactly where there is not more behind a type, and
more behind it goes unnoticed. -/
theorem whole_iff_not_overlong (d : String) :
    (TakesWhole d ↔ ¬ Overlong d.toList) ∧ (NamesWhole d ↔ ¬ Overlong d.toList) ∧
    (IgnoresParts d ↔ ¬ Overlong d.toList) ∧
    (∀ (front rest : List Char) (r : String), d.toList = front ++ rest → TypeForm front r →
      renderFieldType d = .ok r ∧ annotationName d = r ∧
        ∀ member : Member, member.signature = some d → member.toFieldRecord.type = r) ∧
    (¬ Overlong d.toList → (∀ r, ¬ TypeForm d.toList r) → renderFieldType d = .error ⟨d⟩) := by
  refine ⟨takesWhole_iff, namesWhole_iff, ignoresParts_iff, ?_, renderFieldType_of_not_overlong⟩
  intro front rest r hd hform
  have hread := renderFieldType_of_append hd hform
  exact ⟨hread, annotationName_of_ok hread, fun member hmember => fieldType_of_ok hmember hread⟩

/-- An array with more behind it is taken for the array, and an internal name for no type. -/
theorem whole_iff_not_overlong_names :
    (renderFieldType "[Integer" = .ok "int[]" ∧ annotationName "[Integer" = "int[]") ∧
    renderFieldType "java/lang/Integer" = .error ⟨"java/lang/Integer"⟩ ∧
    annotationName "java/lang/Integer" = "java.lang.Integer" := by
  have hnone : type? "java/lang/Integer".toList = none :=
    type?_letter (by decide) (by decide) (by decide) _
  have hstart (front rest : List Char) (r : String)
      (h : "java/lang/Integer".toList = front ++ rest) : ¬ TypeForm front r := by
    intro hform
    obtain ⟨type, htype, -⟩ := type?_iff.mpr ⟨front, h, hform⟩
    rw [hnone] at htype
    cases htype
  have hover : ¬ Overlong "java/lang/Integer".toList :=
    fun ⟨front, rest, r, h, hform, _⟩ => hstart front rest r h hform
  have hwhole (r : String) : ¬ TypeForm "java/lang/Integer".toList r :=
    hstart _ [] r (List.append_nil _).symm
  obtain ⟨-, -, -, hpart, -⟩ := whole_iff_not_overlong "[Integer"
  obtain ⟨-, hnames, -, -, herror⟩ := whole_iff_not_overlong "java/lang/Integer"
  obtain ⟨hread, hname, -⟩ := hpart ['[', 'I'] "nteger".toList "int[]" rfl (.array (.primitive .int))
  exact ⟨⟨hread, hname⟩, herror hover hwhole,
    ((hnames.mpr hover).2 hwhole).trans (binaryName_ofList "java/lang/Integer".toList)⟩

theorem overlong_integer : Overlong "Integer".toList :=
  ⟨['I'], "nteger".toList, "int", rfl, .primitive .int, by decide⟩

theorem overlong_deprecated : Overlong "Deprecated".toList :=
  ⟨['D'], "eprecated".toList, "double", rfl, .primitive .double, by decide⟩

/-- A class name is taken for a number, an annotation is called by the word for another one, and a
field has the type of the first letter of its signature. -/
theorem exists_part_taken :
    ((∀ r, ¬ TypeForm "Integer".toList r) ∧ renderFieldType "Integer" = .ok "int") ∧
    ((∀ r, ¬ TypeForm "Deprecated".toList r) ∧ annotationName "Deprecated" = "double" ∧
      binaryName "Deprecated" = "Deprecated") ∧
    (Member.toFieldRecord ⟨⟨0⟩, "count", "J", some "Integer", [], []⟩).type = "int" ∧
    (Member.toFieldRecord ⟨⟨0⟩, "count", "J", none, [], []⟩).type = "long" := by
  have hinteger : renderFieldType "Integer" = .ok "int" :=
    renderFieldType_eq_ok_iff.mpr ⟨['I'], "nteger".toList, rfl, .primitive .int⟩
  have hdeprecated : renderFieldType "Deprecated" = .ok "double" :=
    renderFieldType_eq_ok_iff.mpr ⟨['D'], "eprecated".toList, rfl, .primitive .double⟩
  have hlong : renderFieldType "J" = .ok "long" :=
    renderFieldType_of_form (.primitive .long)
  refine ⟨⟨overlong_integer.not_form, hinteger⟩, ⟨overlong_deprecated.not_form,
    annotationName_of_ok hdeprecated, binaryName_ofList "Deprecated".toList⟩,
    fieldType_of_ok rfl hinteger, ?_⟩
  rw [Member.toFieldRecord, Member.fieldType, Option.map_none, hlong]

end Signature

end ClassReport
