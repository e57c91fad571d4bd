import ClassReport.ClassRecord.OfClassFile
import ClassReport.Proofs.ClassFileRoundTrip
import ClassReport.Proofs.SignatureGrammar
import Mathlib.Data.List.Forall2
import Mathlib.Data.List.GetD

/-!
# Annotations of parameters

A class file keeps what annotates the parameters of a member in tables, one for the annotations that are
visible at run time and one for the others. A table may lack entries for the first parameters. A report
puts the tables of a member together position by position, from their first entries on, and moves what
comes out to the last parameters. So the longest table decides where all of them stand
(`annotations_tables`): tables of one length stand at the last parameters, and a shorter one does not. A
table that is longer than the list of parameters is not cut off (`annotations_parallel_iff`).
-/

namespace ClassReport

/-! ### Methods and constructors together -/

/-- The parameters of a method or of a constructor, as a report shows them. -/
structure ParameterList where
  types : List String
  annotations : List (List String)
  deriving DecidableEq, Repr

def MethodRecord.parameterList (m : MethodRecord) : ParameterList :=
  ⟨m.parameterTypes, m.parameterAnnotations⟩

def ConstructorRecord.parameterList (c : ConstructorRecord) : ParameterList :=
  ⟨c.parameterTypes, c.parameterAnnotations⟩

def ClassRecord.parameterLists (record : ClassRecord) : List ParameterList :=
  record.methods.map MethodRecord.parameterList ++
    record.constructors.map ConstructorRecord.parameterList

namespace Member

def parameterList (member : Member) : ParameterList :=
  ⟨member.methodTypes.parameters,
    member.parameterAnnotationNames member.methodTypes.parameters.length⟩

theorem length_parameterAnnotationNames (member : Member) (count : Nat) :
    (member.parameterAnnotationNames count).length =
      max count member.parameterAnnotations.length := by
  simp only [parameterAnnotationNames, List.length_append, List.length_replicate, List.length_map]
  omega

/-- The members that become methods, and behind them those that become constructors. -/
def callables (members : List Member) : List Member :=
  (members.filter fun m => isMethodName m.name) ++ members.filter fun m => m.name == constructorName

end Member

theorem ClassFile.parameterLists_toRecord (file : ClassFile) :
    file.toRecord.parameterLists = (Member.callables file.methods).map Member.parameterList := by
  rw [ClassRecord.parameterLists, toRecord, Member.callables, List.map_append, List.map_map,
    List.map_map]
  rfl

/-! ### Number of entries -/

theorem ClassFile.forall_parameterLists (file : ClassFile) {Holds : Member → ParameterList → Prop}
    (h : ∀ m, Holds m m.parameterList) :
    List.Forall₂ Holds (Member.callables file.methods) file.toRecord.parameterLists := by
  rw [file.parameterLists_toRecord, List.forall₂_map_right_iff, List.forall₂_same]
  intro m _
  exact h m

/-- Every parameter has a list of annotations, and there are more lists than parameters exactly where
the table of the class file is longer than the list of parameters. -/
theorem ClassFile.annotations_parallel_iff (file : ClassFile) :
    List.Forall₂ (fun m p =>
        p.annotations.length = max p.types.length m.parameterAnnotations.length)
      (Member.callables file.methods) file.toRecord.parameterLists ∧
    ((∀ p ∈ file.toRecord.parameterLists, p.annotations.length = p.types.length) ↔
      ∀ m ∈ Member.callables file.methods,
        m.parameterAnnotations.length ≤ m.methodTypes.parameters.length) := by
  have hlength (m : Member) : m.parameterList.annotations.length =
      max m.parameterList.types.length m.parameterAnnotations.length :=
    m.length_parameterAnnotationNames m.methodTypes.parameters.length
  constructor
  · apply file.forall_parameterLists
    exact hlength
  · have hmax (a b : Nat) : max a b = a ↔ b ≤ a := by omega
    simp only [file.parameterLists_toRecord, List.forall_mem_map, hlength, hmax]
    rfl

/-! ### Tables at the last parameters -/

namespace Layout

/-- The table with its entries at the last of so many parameters. -/
def atEnd (count : Nat) (table : List (List String)) : List (List String) :=
  List.replicate (count - table.length) [] ++ table

def longest (tables : List (List (List String))) : Nat := (tables.map List.length).foldl max 0

/-- The tables with empty entries behind those that are shorter than the longest. -/
def evened (tables : List (List (List String))) : List (List (List String)) :=
  tables.map fun table => table ++ List.replicate (longest tables - table.length) []

/-- For each of so many parameters, what the tables say of it when each of them stands at the last
parameters. -/
def gathered (count : Nat) (tables : List (List (List String))) : List (List String) :=
  (List.range count).map fun i =>
    tables.flatMap fun table => ((atEnd count table).getD i []).map annotationName

variable {count : Nat} {table : List (List String)} {tables : List (List (List String))}

theorem getD_atEnd (count : Nat) (table : List (List String)) (i : Nat) :
    (atEnd count table).getD i [] =
      if i < count - table.length then [] else table.getD (i - (count - table.length)) [] := by
  rw [atEnd]
  split
  · rename_i hi
    rw [List.getD_append _ _ _ _ (by simpa using hi)]
    simp [hi]
  · rename_i hi
    rw [List.getD_append_right _ _ _ _ (by simpa using hi), List.length_replicate]

theorem le_foldl_max (lengths : List Nat) (start : Nat) :
    start ≤ lengths.foldl max start ∧ ∀ n ∈ lengths, n ≤ lengths.foldl max start := by
  induction lengths generalizing start with
  | nil => simp
  | cons first lengths ih =>
    obtain ⟨hstart, hrest⟩ := ih (max start first)
    simp only [List.foldl_cons, List.forall_mem_cons]
    exact ⟨by omega, by omega, hrest⟩

theorem length_le_longest (h : table ∈ tables) : table.length ≤ longest tables :=
  (le_foldl_max (tables.map List.length) 0).2 _ (List.mem_map_of_mem h)

theorem getD_append_replicate (table : List (List String)) (more i : Nat) :
    (table ++ List.replicate more []).getD i [] = table.getD i [] := by
  by_cases hi : i < table.length
  · rw [List.getD_append _ _ _ _ hi]
  · have hle : table.length ≤ i := by omega
    rw [List.getD_append_right _ _ _ _ hle, List.getD_eq_default _ _ hle]
    simp

/-- An entry of a table that has been made as long as the longest stands as far from the first parameter
as if the table were the longest. -/
theorem getD_evened (h : table ∈ tables) (count i : Nat) :
    (atEnd count (table ++ List.replicate (longest tables - table.length) [])).getD i [] =
      if i < count - longest tables then [] else table.getD (i - (count - longest tables)) [] := by
  have hlength : (table ++ List.replicate (longest tables - table.length) []).length =
      longest tables := by
    have hle := length_le_longest h
    simp only [List.length_append, List.length_replicate]
    omega
  rw [getD_atEnd, hlength, getD_append_replicate]

/-- What is put together position by position and then moved to the last parameters is what the tables
say when each of them, made as long as the longest, is moved there. -/
theorem gathered_evened (hcount : longest tables ≤ count) :
    gathered count (evened tables) =
      List.replicate (count - longest tables) [] ++
        (List.range (longest tables)).map fun i =>
          (tables.flatMap fun table => table.getD i []).map annotationName := by
  have hentry (i : Nat) :
      ((evened tables).flatMap fun table => ((atEnd count table).getD i []).map annotationName) =
        tables.flatMap fun table =>
          (if i < count - longest tables then []
            else table.getD (i - (count - longest tables)) []).map annotationName := by
    rw [evened, List.flatMap_map]
    apply List.flatMap_congr
    intro t ht
    rw [getD_evened ht]
  have hsplit : List.range count = List.range (count - longest tables) ++
      (List.range (longest tables)).map fun i => count - longest tables + i := by
    rw [← List.range_add, Nat.sub_add_cancel hcount]
  simp only [gathered, hentry, hsplit, List.map_append, List.map_map]
  congr 1
  · rw [List.eq_replicate_iff]
    refine ⟨by simp, ?_⟩
    intro group hgroup
    obtain ⟨i, hi, rfl⟩ := List.mem_map.mp hgroup
    simp [List.mem_range.mp hi]
  · apply List.map_congr_left
    intro i _
    have hbehind : ¬ count - longest tables + i < count - longest tables := by omega
    simp [hbehind, List.map_flatMap]

/-- Tables of one length are even; a table without entries says nothing wherever it stands. -/
theorem gathered_evened_of_length (h : ∀ t ∈ tables, t ≠ [] → t.length = longest tables) :
    gathered count (evened tables) = gathered count tables := by
  apply List.map_congr_left
  intro i _
  rw [evened, List.flatMap_map]
  apply List.flatMap_congr
  intro t ht
  by_cases hnil : t = []
  · rw [hnil, getD_atEnd, getD_atEnd]
    simp
  · rw [h t ht hnil, Nat.sub_self, List.replicate_zero, List.append_nil]

/-! ### From the bytes to the report -/

variable {pool : List Constant} {descriptor : String}

theorem Member.annotations_eq (m : Member pool) (count : Nat) :
    m.content.parameterAnnotationNames count =
      gathered (max count (longest m.tables)) (evened m.tables) := by
  have hlonger : longest m.tables ≤ max count (longest m.tables) := by omega
  have hfront : max count (longest m.tables) - longest m.tables = count - longest m.tables := by omega
  have hlength : m.content.parameterAnnotations.length = longest m.tables := by
    simp [Member.content, longest]
  rw [gathered_evened hlonger, hfront, ClassReport.Member.parameterAnnotationNames, hlength]
  congr 1
  exact List.map_map

theorem Member.annotations_of_length (m : Member pool)
    (heven : ∀ table ∈ m.tables, table ≠ [] → table.length = longest m.tables)
    (hshort : longest m.tables ≤ count) :
    m.content.parameterAnnotationNames count = gathered count m.tables := by
  rw [m.annotations_eq, gathered_evened_of_length heven, Nat.max_eq_left hshort]

def Member.callables (members : List (Member pool)) : List (Member pool) :=
  (members.filter fun m => ClassReport.Member.isMethodName m.name.text) ++
    members.filter fun m => m.name.text == ClassReport.Member.constructorName

theorem Member.callables_content (members : List (Member pool)) :
    ClassReport.Member.callables (members.map content) = (callables members).map content := by
  simp only [ClassReport.Member.callables, callables, List.filter_map, List.map_append]
  rfl

theorem ClassFile.parse_content (file : ClassFile) (h : file.Fits) (trailing : Bytes) :
    ClassReport.ClassFile.parse (file.encode ++ trailing) = .ok file.content := by
  rw [ClassReport.ClassFile.parse, file.reads h trailing]
  rfl

/-- A class file is read, and every method and constructor shows the annotations of its tables: they
stand where the longest table stands at the last parameters. If all tables that have entries have
equally many, and no more than there are parameters, then each of them stands at the last parameters. -/
theorem ClassFile.annotations_tables (file : ClassFile) (h : file.Fits) (trailing : Bytes) :
    ∃ read, ClassReport.ClassFile.parse (file.encode ++ trailing) = .ok read ∧
      List.Forall₂ (fun (m : Member file.pool) p =>
          p.annotations = gathered (max p.types.length (longest m.tables)) (evened m.tables) ∧
          ((∀ table ∈ m.tables, table ≠ [] → table.length = longest m.tables) →
            longest m.tables ≤ p.types.length → p.annotations = gathered p.types.length m.tables))
        (Member.callables file.methods) read.toRecord.parameterLists := by
  refine ⟨file.content, file.parse_content h trailing, ?_⟩
  rw [ClassReport.ClassFile.parameterLists_toRecord, content, Member.callables_content,
    List.map_map, List.forall₂_map_right_iff, List.forall₂_same]
  intro m _
  constructor
  · exact m.annotations_eq m.content.methodTypes.parameters.length
  · intro heven hshort
    exact m.annotations_of_length heven hshort

/-! ### A constructor with two tables -/

def innerPool (descriptor : String) : List Constant :=
  [.classRef 2, .utf8 (ModifiedUtf8.encode "Inner"), .utf8 (ModifiedUtf8.encode "<init>"),
    .utf8 (ModifiedUtf8.encode descriptor),
    .utf8 (ModifiedUtf8.encode "RuntimeVisibleParameterAnnotations"),
    .utf8 (ModifiedUtf8.encode "RuntimeInvisibleParameterAnnotations"),
    .utf8 (ModifiedUtf8.encode "LA;"), .utf8 (ModifiedUtf8.encode "LB;")]

/-- The two annotations of the example, each without values. -/
inductive Mark where
  | a
  | b
  deriving DecidableEq, Repr

def Mark.layout (descriptor : String) : Mark → AnnotationLayout (innerPool descriptor)
  | .a => ⟨⟨7, ModifiedUtf8.encode "LA;", (innerPool descriptor).take 6,
      (innerPool descriptor).drop 7, rfl, rfl⟩, []⟩
  | .b => ⟨⟨8, ModifiedUtf8.encode "LB;", (innerPool descriptor).take 7, [], rfl, rfl⟩, []⟩

def markTable (descriptor : String) (isVisible : Bool) (table : List (List Mark)) :
    AttributeContent (innerPool descriptor) :=
  .parameterAnnotations isVisible (table.map fun list => list.map (Mark.layout descriptor)) []

def innerConstructor (descriptor : String) (visible invisible : List (List Mark)) :
    Member (innerPool descriptor) where
  flags := 0
  name := ⟨3, ModifiedUtf8.encode "<init>", (innerPool descriptor).take 2,
    (innerPool descriptor).drop 3, rfl, rfl⟩
  descriptor := ⟨4, ModifiedUtf8.encode descriptor, (innerPool descriptor).take 3,
    (innerPool descriptor).drop 4, rfl, rfl⟩
  attributes :=
    [{ name := ⟨5, ModifiedUtf8.encode "RuntimeVisibleParameterAnnotations",
         (innerPool descriptor).take 4, (innerPool descriptor).drop 5, rfl, rfl⟩
       content := markTable descriptor true visible
       named := ModifiedUtf8.decode_encode _ },
     { name := ⟨6, ModifiedUtf8.encode "RuntimeInvisibleParameterAnnotations",
         (innerPool descriptor).take 5, (innerPool descriptor).drop 6, rfl, rfl⟩
       content := markTable descriptor false invisible
       named := ModifiedUtf8.decode_encode _ }]

abbrev inner (descriptor : String) (visible invisible : List (List Mark)) : ClassFile where
  minor := 0
  major := 52
  pool := innerPool descriptor
  flags := 0x21
  thisClass := ⟨1, ⟨2, ModifiedUtf8.encode "Inner", (innerPool descriptor).take 1,
    (innerPool descriptor).drop 2, rfl, rfl⟩, [], (innerPool descriptor).drop 1, rfl, rfl⟩
  superClass := none
  interfaces := []
  fields := []
  methods := [innerConstructor descriptor visible invisible]
  attributes := []

variable {visible invisible : List (List Mark)}

theorem fits_markTable {isVisible : Bool} {marks : List (List Mark)} (hcount : marks.length < 0x100)
    (hlists : ∀ list ∈ marks, list.length < 0x10000) :
    (markTable descriptor isVisible marks).Fits := by
  refine ⟨by simpa using hcount, ?_⟩
  simp only [List.forall_mem_map]
  intro list hlist
  refine ⟨by simpa using hlists list hlist, ?_⟩
  simp only [List.forall_mem_map]
  intro mark _
  cases mark <;> simp [Mark.layout, AnnotationLayout.Fits, PairsFit]

theorem callables_innerConstructor (descriptor : String) (visible invisible : List (List Mark)) :
    Member.callables [innerConstructor descriptor visible invisible] =
      [innerConstructor descriptor visible invisible] := by
  have hname : (innerConstructor descriptor visible invisible).name.text = "<init>" :=
    ModifiedUtf8.decode_encode "<init>"
  simp [Member.callables, hname, ClassReport.Member.isMethodName,
    ClassReport.Member.constructorName]

theorem parameterLists_inner (visible invisible : List (List Mark)) {types : List String}
    {result : String} (h : renderMethodTypes descriptor = .ok ⟨types, result⟩) :
    (inner descriptor visible invisible).content.toRecord.parameterLists =
      [⟨types, (innerConstructor descriptor visible invisible).content.parameterAnnotationNames
        types.length⟩] := by
  have hdescriptor : (innerConstructor descriptor visible invisible).content.descriptor = descriptor :=
    ModifiedUtf8.decode_encode descriptor
  have hsignature : (innerConstructor descriptor visible invisible).content.signature = none := rfl
  have htypes : (innerConstructor descriptor visible invisible).content.methodTypes =
      ⟨types, result⟩ := by
    rw [ClassReport.Member.methodTypes, hsignature, hdescriptor, h]
    rfl
  have hmethods : (inner descriptor visible invisible).content.methods =
      [innerConstructor descriptor visible invisible].map Member.content := rfl
  rw [ClassReport.ClassFile.parameterLists_toRecord, hmethods, Member.callables_content,
    callables_innerConstructor, List.map_singleton, List.map_singleton,
    ClassReport.Member.parameterList, htypes]

/-- The tables of the constructor, by the descriptors of the annotations. -/
def markTypes (marks : List (List Mark)) : List (List String) :=
  marks.map fun list => list.map fun mark =>
    match mark with
    | .a => "LA;"
    | .b => "LB;"

theorem tables_innerConstructor (descriptor : String) (visible invisible : List (List Mark)) :
    (innerConstructor descriptor visible invisible).tables =
      [markTypes visible, markTypes invisible] := by
  have htype (mark : Mark) : (Mark.layout descriptor mark).type.text =
      match mark with
      | .a => "LA;"
      | .b => "LB;" := by
    cases mark <;> exact ModifiedUtf8.decode_encode _
  simp [Member.tables, innerConstructor, markTable, AttributeContent.parameterTable, markTypes,
    AnnotationLayout.types, htype, Function.comp_def]

theorem fits_inner (hconstants : ∀ c ∈ innerPool descriptor, c.Fits)
    (hvisible : (markTable descriptor true visible).Fits)
    (hinvisible : (markTable descriptor false invisible).Fits)
    (hlength : (markTable descriptor true visible).encode.length < 0x100000000 ∧
      (markTable descriptor false invisible).encode.length < 0x100000000) :
    (inner descriptor visible invisible).Fits where
  slots := by
    show 1 + slotCount (innerPool descriptor) < 0x10000
    simp [innerPool, slotCount, Constant.width]
  constants := hconstants
  interfaces := Nat.zero_lt_succ _
  fields := ⟨Nat.zero_lt_succ _, fun m hm => nomatch hm⟩
  methods := by
    refine ⟨by simp [inner], fun m hm => ?_⟩
    rcases List.mem_singleton.mp hm with rfl
    refine ⟨Nat.lt_of_sub_eq_succ rfl, ?_⟩
    refine List.forall_mem_cons.mpr ⟨⟨hlength.1, hvisible⟩, ?_⟩
    exact List.forall_mem_cons.mpr ⟨⟨hlength.2, hinvisible⟩, fun a ha => nomatch ha⟩
  attributeCount := Nat.zero_lt_succ _
  attributeLength := fun a ha => nomatch ha

theorem annotationName_class {c : Char} (h : Signature.SegmentName [c]) (hslash : c ≠ '/') :
    annotationName (String.ofList ['L', c, ';']) = String.ofList [c] := by
  have hname := Signature.annotationName_of_form (.object (.last (.plain h)))
  rw [Signature.binaryName_ofList, String.intercalate_singleton] at hname
  simpa [hslash] using hname

theorem annotationName_a : annotationName "LA;" = "A" :=
  annotationName_class ⟨by decide, by simp⟩ (by decide)

theorem annotationName_b : annotationName "LB;" = "B" :=
  annotationName_class ⟨by decide, by simp⟩ (by decide)

theorem types_two : renderMethodTypes "(II)V" = .ok ⟨["int", "int"], "void"⟩ := by cbv

/-- Both tables have one entry, for the last of the two parameters. -/
theorem annotations_tables_even : (inner "(II)V" [[.a]] [[.b]]).Fits ∧
    ∃ read, ClassReport.ClassFile.parse ((inner "(II)V" [[.a]] [[.b]]).encode ++ [0]) = .ok read ∧
      read.toRecord.parameterLists = [⟨["int", "int"], [[], ["A", "B"]]⟩] := by
  have hfits : (inner "(II)V" [[.a]] [[.b]]).Fits :=
    fits_inner (by decide +kernel) (fits_markTable (by decide) (by decide))
      (fits_markTable (by decide) (by decide)) (by decide)
  obtain ⟨read, hread, hlists⟩ := ClassFile.annotations_tables _ hfits [0]
  refine ⟨hfits, read, hread, ?_⟩
  rw [ClassFile.parse_content _ hfits [0], Except.ok.injEq] at hread
  subst hread
  rw [parameterLists_inner _ _ types_two] at hlists ⊢
  have hmembers : Member.callables (inner "(II)V" [[.a]] [[.b]]).methods =
      [innerConstructor "(II)V" [[.a]] [[.b]]] := callables_innerConstructor _ _ _
  rw [hmembers] at hlists
  have hlast := (List.forall₂_cons.mp hlists).1.2
  rw [tables_innerConstructor] at hlast
  have hgroups : gathered 2 [markTypes [[.a]], markTypes [[.b]]] = [[], ["A", "B"]] := by
    simp [gathered, atEnd, List.range_succ, markTypes, annotationName_a, annotationName_b]
  exact congrArg (fun groups => [ParameterList.mk ["int", "int"] groups])
    ((hlast (by decide) (by decide)).trans hgroups)

/-- Of two parameters the table of one entry annotates the first, and not the last. -/
theorem exists_table_not_at_end : (inner "(II)V" [[.a]] [[], [.b]]).Fits ∧
    ∃ read p, ClassReport.ClassFile.parse (inner "(II)V" [[.a]] [[], [.b]]).encode = .ok read ∧
      read.toRecord.parameterLists = [p] ∧ p = ⟨["int", "int"], [["A"], ["B"]]⟩ ∧
      ∃ m, Member.callables (inner "(II)V" [[.a]] [[], [.b]]).methods = [m] ∧
        (∀ table ∈ m.tables, table.length ≤ p.types.length) ∧
        p.annotations ≠ gathered p.types.length m.tables := by
  have hfits : (inner "(II)V" [[.a]] [[], [.b]]).Fits :=
    fits_inner (by decide +kernel) (fits_markTable (by decide) (by decide))
      (fits_markTable (by decide) (by decide)) (by decide)
  have hread := ClassFile.parse_content _ hfits []
  have hmoved : gathered 2 (evened [markTypes [[.a]], markTypes [[], [.b]]]) = [["A"], ["B"]] := by
    simp [gathered, evened, longest, atEnd, List.range_succ, markTypes, annotationName_a,
      annotationName_b]
  have hclaimed : gathered 2 [markTypes [[.a]], markTypes [[], [.b]]] = [[], ["A", "B"]] := by
    simp [gathered, atEnd, List.range_succ, markTypes, annotationName_a, annotationName_b]
  rw [List.append_nil] at hread
  refine ⟨hfits, _, _, hread, ?_, rfl, _, callables_innerConstructor _ _ _, ?_, ?_⟩
  · rw [parameterLists_inner _ _ types_two, Member.annotations_eq, tables_innerConstructor]
    exact congrArg (fun groups => [ParameterList.mk ["int", "int"] groups]) hmoved
  · rw [tables_innerConstructor]
    decide
  · rw [tables_innerConstructor]
    show [["A"], ["B"]] ≠ gathered 2 _
    rw [hclaimed]
    decide

/-- A constructor without parameters may be shown with the annotations of one. -/
theorem exists_more_annotations : (inner "()V" [[.a]] []).Fits ∧
    ∃ read, ClassReport.ClassFile.parse (inner "()V" [[.a]] []).encode = .ok read ∧
      read.toRecord.parameterLists = [⟨[], [["A"]]⟩] ∧
      ¬ ∀ p ∈ read.toRecord.parameterLists, p.annotations.length = p.types.length := by
  have hfits : (inner "()V" [[.a]] []).Fits :=
    fits_inner (by decide +kernel) (fits_markTable (by decide) (by decide))
      (fits_markTable (by decide) (by decide)) (by decide)
  have htypes : renderMethodTypes "()V" = .ok ⟨[], "void"⟩ := by cbv
  have hmoved : gathered 1 (evened [markTypes [[.a]], markTypes []]) = [["A"]] := by
    simp [gathered, evened, longest, atEnd, List.range_succ, markTypes, annotationName_a]
  have hread := ClassFile.parse_content _ hfits []
  have hlists : (inner "()V" [[.a]] []).content.toRecord.parameterLists = [⟨[], [["A"]]⟩] := by
    rw [parameterLists_inner _ _ htypes, Member.annotations_eq, tables_innerConstructor]
    exact congrArg (fun groups => [ParameterList.mk [] groups]) hmoved
  rw [List.append_nil] at hread
  refine ⟨hfits, _, hread, hlists, ?_⟩
  rw [hlists]
  decide

end Layout

end ClassReport
