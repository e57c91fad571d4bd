import ClassReport.Listing
import ClassReport.Proofs.PathNames
import ClassReport.Proofs.TableWriting

/-!
# Members in listings and in tables

A listing and a table are two renderings of the members of a class. The listing is read back here line by
line: the first line of a block names a class, an empty one ends the block, and a title says of which
kind the members under it are (`scan`). A member's line can be written from the cells of its record
alone (`memberLine`), and the lines of a kind are in this way those of the records of the table, in
their order (`memberLines_verbose`). Texts with line feeds in them would tear lines apart; there are
none in the records (`ClassRecord.IsUnbroken`).
-/

namespace ClassReport

def Unbroken (text : String) : Prop := '\n' ∉ text.toList

instance (text : String) : Decidable (Unbroken text) :=
  inferInstanceAs (Decidable ('\n' ∉ text.toList))

structure FieldRecord.IsUnbroken (field : FieldRecord) : Prop where
  name : Unbroken field.name
  type : Unbroken field.type
  modifiers : Unbroken field.modifiers

structure MethodRecord.IsUnbroken (method : MethodRecord) : Prop where
  name : Unbroken method.name
  returnType : Unbroken method.returnType
  parameterTypes : ∀ type ∈ method.parameterTypes, Unbroken type
  modifiers : Unbroken method.modifiers

structure ConstructorRecord.IsUnbroken (constructor : ConstructorRecord) : Prop where
  parameterTypes : ∀ type ∈ constructor.parameterTypes, Unbroken type
  modifiers : Unbroken constructor.modifiers

/-- No text of the record that a listing shows has a line feed. -/
structure ClassRecord.IsUnbroken (record : ClassRecord) : Prop where
  name : Unbroken record.name
  package : Unbroken record.package
  superclass : ∀ name ∈ record.superclass, Unbroken name
  interfaces : ∀ name ∈ record.interfaces, Unbroken name
  fields : ∀ f ∈ record.fields, f.IsUnbroken
  methods : ∀ m ∈ record.methods, m.IsUnbroken
  constructors : ∀ k ∈ record.constructors, k.IsUnbroken

namespace Listing

/-! ### Reading a listing -/

/-- The lines of a text, each without the line feed that ends it. -/
def lines (text : String) : List String :=
  (Segment.split (· == '\n') text.toList).dropLast.map String.ofList

/-- The kinds of members in the order in which a block has them. -/
def sections : List TableKind := [.fields, .methods, .constructors]

def titleLine (kind : TableKind) : String := "    " ++ kind.label ++ ":"

def title? (text : String) : Option TableKind := sections.find? fun kind => text == titleLine kind

/-- What stands on a line, as far as it is about members. -/
inductive Entry where
  | title (kind : TableKind)
  | member (kind : TableKind) (text : String)
  deriving DecidableEq, Repr

def Entry.title? : Entry → Option TableKind
  | .title kind => some kind
  | .member _ _ => none

/-- The line, if it is that of a member of this kind. -/
def Entry.member? (wanted : TableKind) : Entry → Option String
  | .title _ => none
  | .member kind text => if kind = wanted then some text else none

/-- Where in a listing a line stands. -/
inductive Place where
  | name
  | facts
  | members (kind : TableKind)

namespace Place

def next (place : Place) (text : String) : Place :=
  match place with
  | .name => .facts
  | .facts | .members _ =>
    if text = "" then .name
    else
      match title? text with
      | some kind => .members kind
      | none => place

def entry? (place : Place) (text : String) : Option Entry :=
  match place, title? text with
  | .name, _ => none
  | _, some kind => some (.title kind)
  | .facts, none => none
  | .members kind, none => if text = "" then none else some (.member kind text)

end Place

def scan (place : Place) : List String → List Entry × Place
  | [] => ([], place)
  | text :: texts =>
    let (entries, last) := scan (place.next text) texts
    ((place.entry? text).toList ++ entries, last)

def entries (text : String) : List Entry := (scan .name (lines text)).1

def titles (text : String) : List TableKind := (entries text).filterMap Entry.title?

def memberLines (kind : TableKind) (text : String) : List String :=
  (entries text).filterMap (Entry.member? kind)

/-! ### The line of a record -/

def leading (modifiers : String) : String := if modifiers = "" then "" else modifiers ++ " "

/-- The line for the member that has these cells in its table. -/
def memberLine : TableKind → List String → String
  | .fields, [_, _, name, type, modifiers, isStatic, _] =>
    "      " ++ leading modifiers ++ type ++ " " ++ name ++
      if isStatic = "true" then " (class variable)" else " (instance variable)"
  | .methods, [_, _, name, returnType, parameters, modifiers, _, _, _] =>
    "      " ++ leading modifiers ++ returnType ++ " " ++ name ++ "(" ++ parameters ++ ")"
  | .constructors, [_, className, parameters, modifiers, _, _] =>
    "      " ++ leading modifiers ++
      Segment.last (· == '$') (Segment.last (· == '.') className) ++ "(" ++ parameters ++ ")"
  | _, _ => ""

theorem declaration_eq (modifiers : String) {words : List String} (h : words ≠ []) :
    declaration modifiers words = leading modifiers ++ " ".intercalate words := by
  rw [declaration, leading]
  by_cases hempty : modifiers = ""
  · simp [hempty]
  · simp [hempty, String.intercalate_cons_of_ne_nil h, String.append_assoc]

variable {source className : String}

theorem fieldLine_eq (source className : String) (field : FieldRecord) :
    fieldLine field = line (memberLine .fields (Table.fieldRow source className field)) := by
  rw [fieldLine, declaration_eq _ (by simp)]
  cases hstatic : field.isStatic <;>
    simp [memberLine, Table.fieldRow, Table.flagCell, hstatic, String.append_assoc]

theorem methodLine_eq (source className : String) (method : MethodRecord) :
    methodLine method = line (memberLine .methods (Table.methodRow source className method)) := by
  rw [methodLine, declaration_eq _ (by simp)]
  simp [memberLine, Table.methodRow, Table.joinTypes, String.append_assoc]

theorem constructorLine_eq (source : String) (record : ClassRecord)
    (constructor : ConstructorRecord) :
    constructorLine record.simpleName constructor =
      line (memberLine .constructors (Table.constructorRow source record.name constructor)) := by
  rw [constructorLine, declaration_eq _ (by simp)]
  simp [memberLine, Table.constructorRow, Table.joinTypes, ClassRecord.simpleName, String.append_assoc]

/-! ### A block is made of unbroken lines -/

def sectionTexts (kind : TableKind) (members : List String) : List String :=
  if members = [] then [] else titleLine kind :: members

theorem sectionLines_eq (kind : TableKind) (members : List String) :
    sectionLines kind.label (members.map line) = (sectionTexts kind members).map line := by
  cases members with
  | nil => rfl
  | cons text members => rfl

def classMembers (source : String) (record : ClassRecord) (kind : TableKind) : List String :=
  (Table.classRows kind source record).map (memberLine kind)

theorem memberSections_eq (source : String) (record : ClassRecord) :
    sectionLines "Fields" (record.sortedFields.map fieldLine) ++
      sectionLines "Methods" (record.reportableMethods.map methodLine) ++
      sectionLines "Constructors"
        (record.sortedConstructors.map (constructorLine record.simpleName)) =
    (sections.flatMap fun kind => sectionTexts kind (classMembers source record kind)).map line := by
  have hfields : record.sortedFields.map fieldLine =
      (classMembers source record .fields).map line := by
    simp [classMembers, Table.classRows, fieldLine_eq source record.name]
  have hmethods : record.reportableMethods.map methodLine =
      (classMembers source record .methods).map line := by
    simp [classMembers, Table.classRows, methodLine_eq source record.name]
  have hconstructors : record.sortedConstructors.map (constructorLine record.simpleName) =
      (classMembers source record .constructors).map line := by
    simp [classMembers, Table.classRows, constructorLine_eq source]
  rw [hfields, hmethods, hconstructors]
  simp only [sections, List.flatMap_cons, List.flatMap_nil, List.append_nil, List.map_append]
  rw [← sectionLines_eq, ← sectionLines_eq, ← sectionLines_eq, List.append_assoc]
  rfl

/-- What a block says of the class itself, below its name. -/
def factTexts (record : ClassRecord) : List String :=
  ("    Type: " ++ record.kind.label) ::
    (record.superclass.toList.map fun name => "    Superclass: " ++ name) ++
    (if record.interfaces.isEmpty then []
      else ["    Interfaces: " ++ ", ".intercalate record.interfaces]) ++
    ["    Package: " ++ record.package]

def blockTexts (source : String) (record : ClassRecord) : List String :=
  ("  " ++ record.name) :: (factTexts record ++
    (sections.flatMap fun kind => sectionTexts kind (classMembers source record kind)) ++ [""])

theorem headLines_eq (record : ClassRecord) :
    headLines record = (("  " ++ record.name) :: factTexts record).map line := by
  unfold headLines factTexts
  cases record.superclass with
  | none => cases record.interfaces.isEmpty <;> rfl
  | some name => cases record.interfaces.isEmpty <;> rfl

theorem verboseLines_eq (source : String) (record : ClassRecord) :
    verboseLines record = (blockTexts source record).map line := by
  rw [verboseLines, List.append_assoc (headLines record), List.append_assoc (headLines record),
    memberSections_eq source, headLines_eq, blockTexts]
  simp

/-! ### Steps of the reader -/

/-- A line that neither ends a block nor begins a section. -/
structure Untitled (text : String) : Prop where
  ne_empty : text ≠ ""
  title? : title? text = none

theorem title?_titleLine (kind : TableKind) : title? (titleLine kind) = some kind := by
  cases kind <;> decide

theorem titleLine_ne_empty (kind : TableKind) : titleLine kind ≠ "" := by
  cases kind <;> decide

theorem untitled_append {start : String} (hstart : start ≠ "")
    (h : ∀ kind ∈ sections, ¬ start.toList <+: (titleLine kind).toList) (rest : String) :
    Untitled (start ++ rest) where
  ne_empty := by simp [hstart]
  title? := by
    rw [title?, List.find?_eq_none]
    intro kind hkind heq
    apply h kind hkind
    rw [← beq_iff_eq.mp heq, String.toList_append]
    exact List.prefix_append _ _

theorem untitled_facts (record : ClassRecord) : ∀ text ∈ factTexts record, Untitled text := by
  intro text h
  simp only [factTexts, List.mem_append, List.mem_cons, List.mem_map, List.not_mem_nil, or_false] at h
  rcases h with ((rfl | ⟨name, -, rfl⟩) | h) | rfl
  · exact untitled_append (by decide) (by decide) _
  · exact untitled_append (by decide) (by decide) _
  · split at h
    · cases h
    · rw [List.mem_singleton.mp h]
      exact untitled_append (by decide) (by decide) _
  · exact untitled_append (by decide) (by decide) _

theorem untitled_members (source : String) (record : ClassRecord) (kind : TableKind) :
    ∀ text ∈ classMembers source record kind, Untitled text := by
  intro text h
  have hindent (rest : String) : Untitled ("      " ++ rest) :=
    untitled_append (by decide) (by decide) rest
  obtain ⟨cells, hcells, rfl⟩ := List.mem_map.mp h
  cases kind with
  | methods =>
    obtain ⟨m, -, rfl⟩ := List.mem_map.mp hcells
    simpa [memberLine, Table.methodRow, String.append_assoc] using hindent _
  | fields =>
    obtain ⟨f, -, rfl⟩ := List.mem_map.mp hcells
    simpa [memberLine, Table.fieldRow, String.append_assoc] using hindent _
  | constructors =>
    obtain ⟨k, -, rfl⟩ := List.mem_map.mp hcells
    simpa [memberLine, Table.constructorRow, String.append_assoc] using hindent _

theorem scan_append (place : Place) (texts others : List String) :
    scan place (texts ++ others) =
      ((scan place texts).1 ++ (scan (scan place texts).2 others).1,
        (scan (scan place texts).2 others).2) := by
  induction texts generalizing place with
  | nil => rfl
  | cons text texts ih => simp [scan, ih]

theorem scan_facts {texts : List String} (h : ∀ text ∈ texts, Untitled text) :
    scan .facts texts = ([], .facts) := by
  induction texts with
  | nil => rfl
  | cons text texts ih =>
    obtain ⟨htext, htexts⟩ := List.forall_mem_cons.mp h
    simp [scan, Place.next, Place.entry?, htext.ne_empty, htext.title?, ih htexts]

theorem scan_members {texts : List String} (h : ∀ text ∈ texts, Untitled text) (kind : TableKind) :
    scan (.members kind) texts = (texts.map (Entry.member kind), .members kind) := by
  induction texts with
  | nil => rfl
  | cons text texts ih =>
    obtain ⟨htext, htexts⟩ := List.forall_mem_cons.mp h
    simp [scan, Place.next, Place.entry?, htext.ne_empty, htext.title?, ih htexts]

theorem scan_title {place : Place} (h : place ≠ .name) (kind : TableKind) (texts : List String) :
    scan place (titleLine kind :: texts) =
      (.title kind :: (scan (.members kind) texts).1, (scan (.members kind) texts).2) := by
  cases place with
  | name => exact absurd rfl h
  | facts => simp [scan, Place.next, Place.entry?, titleLine_ne_empty, title?_titleLine]
  | members before => simp [scan, Place.next, Place.entry?, titleLine_ne_empty, title?_titleLine]

theorem scan_end {place : Place} (h : place ≠ .name) : scan place [""] = ([], .name) := by
  have hempty : title? "" = none := by decide
  cases place with
  | name => exact absurd rfl h
  | facts => simp [scan, Place.next, Place.entry?, hempty]
  | members kind => simp [scan, Place.next, Place.entry?, hempty]

/-! ### What is read in a block -/

def sectionEntries (kind : TableKind) (members : List String) : List Entry :=
  if members = [] then [] else .title kind :: members.map (Entry.member kind)

def blockEntries (source : String) (record : ClassRecord) : List Entry :=
  sections.flatMap fun kind => sectionEntries kind (classMembers source record kind)

theorem scan_section {place : Place} (h : place ≠ .name) (kind : TableKind) {members : List String}
    (hmembers : ∀ text ∈ members, Untitled text) :
    ∃ last, last ≠ .name ∧
      scan place (sectionTexts kind members) = (sectionEntries kind members, last) := by
  rw [sectionTexts, sectionEntries]
  by_cases hnone : members = []
  · rw [if_pos hnone, if_pos hnone]
    exact ⟨place, h, rfl⟩
  · rw [if_neg hnone, if_neg hnone, scan_title h, scan_members hmembers]
    exact ⟨.members kind, by simp, rfl⟩

theorem scan_sections {place : Place} (h : place ≠ .name) (source : String) (record : ClassRecord)
    (kinds : List TableKind) :
    ∃ last, last ≠ .name ∧
      scan place (kinds.flatMap fun kind => sectionTexts kind (classMembers source record kind)) =
        (kinds.flatMap fun kind => sectionEntries kind (classMembers source record kind), last) := by
  -- All that counts of the place in front of a section is that a name has been read.
  induction kinds generalizing place with
  | nil => exact ⟨place, h, rfl⟩
  | cons kind kinds ih =>
    obtain ⟨middle, hmiddle, hsection⟩ := scan_section h kind (untitled_members source record kind)
    obtain ⟨last, hlast, hsections⟩ := ih hmiddle
    refine ⟨last, hlast, ?_⟩
    rw [List.flatMap_cons, scan_append, hsection, hsections, List.flatMap_cons]

theorem scan_block (source : String) (record : ClassRecord) :
    scan .name (blockTexts source record) = (blockEntries source record, .name) := by
  have hinside : Place.facts ≠ .name := by simp
  obtain ⟨last, hlast, hsections⟩ := scan_sections hinside source record sections
  rw [blockTexts, scan, scan_append, scan_append]
  simp [Place.next, Place.entry?, scan_facts (untitled_facts record), hsections, scan_end hlast,
    blockEntries]

theorem scan_blocks (source : String) (classes : List ClassRecord) :
    scan .name (classes.flatMap (blockTexts source)) =
      (classes.flatMap (blockEntries source), .name) := by
  induction classes with
  | nil => rfl
  | cons record classes ih =>
    rw [List.flatMap_cons, scan_append, scan_block, ih, List.flatMap_cons]

/-! ### Lines of a listing -/

theorem unbroken_append {first second : String} :
    Unbroken (first ++ second) ↔ Unbroken first ∧ Unbroken second := by
  simp [Unbroken, not_or]

theorem unbroken_intercalate {separator : String} {texts : List String} (h : Unbroken separator)
    (h' : ∀ text ∈ texts, Unbroken text) : Unbroken (separator.intercalate texts) := by
  intro hmem
  rcases TableFormat.mem_intercalate hmem with hmem | ⟨text, htext, hmem⟩
  · exact h hmem
  · exact h' text htext hmem

theorem unbroken_last {text : String} (h : Unbroken text) (isSeparator : Char → Bool) :
    Unbroken (Segment.last isSeparator text) := by
  intro hmem
  rw [Segment.last, String.toList_ofList, List.mem_reverse] at hmem
  exact h (List.mem_reverse.mp ((List.takeWhile_prefix _).subset hmem))

theorem unbroken_leading {modifiers : String} (h : Unbroken modifiers) :
    Unbroken (leading modifiers) := by
  have hblank : Unbroken " " := by decide
  rw [leading]
  split
  · simp [Unbroken]
  · exact unbroken_append.mpr ⟨h, hblank⟩

theorem lines_join {texts : List String} (h : ∀ text ∈ texts, Unbroken text) :
    lines (String.join (texts.map line)) = texts := by
  induction texts with
  | nil => rfl
  | cons text texts ih =>
    obtain ⟨htext, htexts⟩ := List.forall_mem_cons.mp h
    have hlist : (String.join ((text :: texts).map line)).toList =
        text.toList ++ '\n' :: (String.join (texts.map line)).toList := by
      simp [String.join_cons, line]
    have hfree : ∀ c ∈ text.toList, (c == '\n') = false := by
      intro c hc
      rw [beq_eq_false_iff_ne]
      rintro rfl
      exact htext hc
    have hrest := ih htexts
    rw [lines] at hrest
    rw [lines, hlist, Segment.split_append (by rfl), Segment.split_of_free hfree,
      List.singleton_append, List.dropLast_cons_of_ne_nil (Segment.split_ne_nil _), List.map_cons,
      hrest, String.ofList_toList]

theorem unbroken_fact {record : ClassRecord} (h : record.IsUnbroken) {text : String}
    (htext : text ∈ factTexts record) : Unbroken text := by
  simp only [factTexts, List.mem_append, List.mem_cons, List.mem_map, List.not_mem_nil, or_false]
    at htext
  rcases htext with ((rfl | ⟨name, hname, rfl⟩) | htext) | rfl
  · have hkind : Unbroken record.kind.label := by cases record.kind <;> decide
    exact unbroken_append.mpr ⟨by decide, hkind⟩
  · exact unbroken_append.mpr ⟨by decide, h.superclass name (Option.mem_toList.mp hname)⟩
  · split at htext
    · cases htext
    · rw [List.mem_singleton.mp htext]
      exact unbroken_append.mpr ⟨by decide, unbroken_intercalate (by decide) h.interfaces⟩
  · exact unbroken_append.mpr ⟨by decide, h.package⟩

theorem unbroken_fieldLine {field : FieldRecord} (h : field.IsUnbroken) :
    Unbroken (memberLine .fields (Table.fieldRow source className field)) := by
  have hscope : Unbroken
      (if Table.flagCell field.isStatic = "true" then " (class variable)"
        else " (instance variable)") := by
    split <;> decide
  simp only [memberLine, Table.fieldRow, unbroken_append, and_assoc]
  exact ⟨by decide, unbroken_leading h.modifiers, h.type, by decide, h.name, hscope⟩

theorem unbroken_methodLine {method : MethodRecord} (h : method.IsUnbroken) :
    Unbroken (memberLine .methods (Table.methodRow source className method)) := by
  have hparameters : Unbroken (", ".intercalate method.parameterTypes) :=
    unbroken_intercalate (by decide) h.parameterTypes
  simp only [memberLine, Table.methodRow, Table.joinTypes, unbroken_append, and_assoc]
  exact ⟨by decide, unbroken_leading h.modifiers, h.returnType, by decide, h.name, by decide,
    hparameters, by decide⟩

theorem unbroken_constructorLine {constructor : ConstructorRecord} (h : constructor.IsUnbroken)
    (hname : Unbroken className) :
    Unbroken (memberLine .constructors (Table.constructorRow source className constructor)) := by
  have hparameters : Unbroken (", ".intercalate constructor.parameterTypes) :=
    unbroken_intercalate (by decide) h.parameterTypes
  simp only [memberLine, Table.constructorRow, Table.joinTypes, unbroken_append, and_assoc]
  exact ⟨by decide, unbroken_leading h.modifiers, unbroken_last (unbroken_last hname _) _,
    by decide, hparameters, by decide⟩

theorem unbroken_member {record : ClassRecord} (h : record.IsUnbroken) {kind : TableKind}
    {text : String} (htext : text ∈ classMembers source record kind) : Unbroken text := by
  obtain ⟨cells, hcells, rfl⟩ := List.mem_map.mp htext
  cases kind with
  | methods =>
    obtain ⟨m, hm, rfl⟩ := List.mem_map.mp hcells
    rw [ClassRecord.reportableMethods, List.mem_mergeSort] at hm
    exact unbroken_methodLine (h.methods m (List.mem_filter.mp hm).1)
  | fields =>
    obtain ⟨f, hf, rfl⟩ := List.mem_map.mp hcells
    rw [ClassRecord.sortedFields, List.mem_mergeSort] at hf
    exact unbroken_fieldLine (h.fields f hf)
  | constructors =>
    obtain ⟨k, hk, rfl⟩ := List.mem_map.mp hcells
    rw [ClassRecord.sortedConstructors, List.mem_mergeSort] at hk
    exact unbroken_constructorLine (h.constructors k hk) h.name

theorem unbroken_block {record : ClassRecord} (h : record.IsUnbroken) :
    ∀ text ∈ blockTexts source record, Unbroken text := by
  intro text htext
  simp only [blockTexts, List.mem_cons, List.mem_append, List.mem_flatMap, List.not_mem_nil,
    or_false] at htext
  rcases htext with rfl | (hfact | ⟨kind, -, hsection⟩) | rfl
  · exact unbroken_append.mpr ⟨by decide, h.name⟩
  · exact unbroken_fact h hfact
  · rw [sectionTexts] at hsection
    split at hsection
    · cases hsection
    · rcases List.mem_cons.mp hsection with rfl | hmember
      · cases kind <;> decide
      · exact unbroken_member h hmember
  · decide

/-! ### The law -/

theorem lines_listing {classes : List ClassRecord} (h : ∀ record ∈ classes, record.IsUnbroken)
    (source : String) :
    lines (String.join (classes.map verbose)) = classes.flatMap (blockTexts source) := by
  have hjoin : String.join (classes.map verbose) =
      String.join ((classes.flatMap (blockTexts source)).map line) := by
    induction classes with
    | nil => rfl
    | cons record classes ih =>
      rw [List.map_cons, String.join_cons, ih (List.forall_mem_cons.mp h).2, verbose,
        verboseLines_eq source, List.flatMap_cons, List.map_append, String.join_append]
  rw [hjoin]
  apply lines_join
  intro text htext
  obtain ⟨record, hrecord, htext⟩ := List.mem_flatMap.mp htext
  exact unbroken_block (h record hrecord) text htext

theorem entries_listing {classes : List ClassRecord} (h : ∀ record ∈ classes, record.IsUnbroken)
    (source : String) :
    entries (String.join (classes.map verbose)) = classes.flatMap (blockEntries source) := by
  rw [entries, lines_listing h source, scan_blocks]

theorem filterMap_member? (wanted kind : TableKind) (members : List String) :
    (sectionEntries kind members).filterMap (Entry.member? wanted) =
      if kind = wanted then members else [] := by
  have hline : Entry.member? wanted ∘ Entry.member kind =
      fun text => if kind = wanted then some text else none := rfl
  rw [sectionEntries]
  by_cases hnone : members = []
  · simp [hnone]
  · rw [if_neg hnone, List.filterMap_cons, Entry.member?, List.filterMap_map, hline]
    by_cases hkind : kind = wanted <;> simp [hkind]

theorem filterMap_title? (kind : TableKind) (members : List String) :
    (sectionEntries kind members).filterMap Entry.title? =
      if members = [] then [] else [kind] := by
  rw [sectionEntries]
  by_cases hnone : members = []
  · simp [hnone]
  · simp [hnone, Entry.title?, List.filterMap_map, Function.comp_def]

theorem memberLines_listing {classes : List ClassRecord}
    (h : ∀ record ∈ classes, record.IsUnbroken) (source : String) (kind : TableKind) :
    memberLines kind (String.join (classes.map verbose)) =
      (Table.rows kind source classes).map (memberLine kind) := by
  have hblock (record : ClassRecord) :
      (blockEntries source record).filterMap (Entry.member? kind) =
        (Table.classRows kind source record).map (memberLine kind) := by
    rw [blockEntries, List.filterMap_flatMap]
    simp only [filterMap_member?]
    cases kind <;> simp [sections, classMembers]
  rw [memberLines, entries_listing h source, List.filterMap_flatMap, Table.rows, List.map_flatMap]
  simp only [hblock]

theorem titles_verbose {record : ClassRecord} (h : record.IsUnbroken) (source : String) :
    titles (verbose record) =
      sections.filter fun kind => Table.classRows kind source record ≠ [] := by
  have hentries := @entries_listing [record] (by simpa using h) source
  have hjoin : String.join ([record].map verbose) = verbose record := by simp [String.join_cons]
  rw [hjoin, List.flatMap_singleton] at hentries
  rw [titles, hentries, blockEntries, List.filterMap_flatMap]
  simp only [filterMap_title?, classMembers, List.map_eq_nil_iff]
  induction sections with
  | nil => rfl
  | cons kind kinds ih =>
    rw [List.flatMap_cons, ih, List.filter_cons]
    by_cases hnone : Table.classRows kind source record = [] <;> simp [hnone]

/-- The members of a kind that a listing shows are those whose records the table of that kind holds, in
the same order, each on the line that its cells make; a write to the table tells their number; and a
class has a title exactly for the kinds of which it has a record. -/
theorem memberLines_verbose (classes : List ClassRecord)
    (h : ∀ record ∈ classes, record.IsUnbroken) (source : String) (kind : TableKind) :
    memberLines kind (String.join (classes.map verbose)) =
      (Table.rows kind source classes).map (memberLine kind) ∧
    (∀ files started style path written,
      Table.write files started style kind path source classes = .ok written →
      written.count = (memberLines kind (String.join (classes.map verbose))).length) ∧
    ∀ record ∈ classes, titles (verbose record) =
      sections.filter fun kind => Table.classRows kind source record ≠ [] := by
  refine ⟨memberLines_listing h source kind, ?_, ?_⟩
  · intro files started style path written hwrite
    rw [(Table.write_eq_ok hwrite).2.1, memberLines_listing h source kind, List.length_map]
  · intro record hrecord
    exact titles_verbose (h record hrecord) source

/-- A class with fields of either scope, one constructor, and no method to report. -/
def widget : ClassRecord where
  name := "a.Outer$Widget"
  package := "a"
  kind := .plainClass
  superclass := some "a.Base"
  interfaces := []
  fields :=
    [⟨"COUNT", "long", "public static final", true, ["a.B"]⟩, ⟨"tag", "int", "", false, []⟩]
  methods := [⟨"lambda$run$0", "void", [], "private", false, [], []⟩]
  constructors := [⟨["int", "long"], "public", [], [[], []]⟩]

theorem widget_isUnbroken : widget.IsUnbroken where
  name := by decide
  package := by decide
  superclass := by decide
  interfaces := by simp [widget]
  fields := by
    simp only [widget, List.forall_mem_cons]
    exact ⟨⟨by decide, by decide, by decide⟩, ⟨by decide, by decide, by decide⟩, by simp⟩
  methods := by
    simp only [widget, List.forall_mem_cons]
    exact ⟨⟨by decide, by decide, by simp, by decide⟩, by simp⟩
  constructors := by
    simp only [widget, List.forall_mem_cons]
    exact ⟨⟨by decide, by decide⟩, by simp⟩

theorem classRows_widget (kind : TableKind) :
    Table.classRows kind "a.jar" widget =
      match kind with
      | .methods => []
      | .fields =>
        [["a.jar", "a.Outer$Widget", "COUNT", "long", "public static final", "true", "a.B"],
          ["a.jar", "a.Outer$Widget", "tag", "int", "", "false", ""]]
      | .constructors => [["a.jar", "a.Outer$Widget", "int, long", "public", "", ""]] := by
  have hfields : widget.sortedFields = widget.fields :=
    List.mergeSort_of_pairwise (by decide +kernel)
  have hmethods : widget.reportableMethods = [] := by
    rw [ClassRecord.reportableMethods, widget, List.filter_cons_of_neg (by decide), List.filter_nil,
      List.mergeSort_nil]
  have hconstructors : widget.sortedConstructors = widget.constructors :=
    List.mergeSort_singleton _
  cases kind with
  | methods => rw [Table.classRows, hmethods, List.map_nil]
  | fields =>
    rw [Table.classRows, hfields]
    rfl
  | constructors =>
    rw [Table.classRows, hconstructors]
    rfl

theorem memberLines_verbose_widget :
    (∀ record ∈ [widget], record.IsUnbroken) ∧
    memberLines .fields (String.join ([widget].map verbose)) =
      ["      public static final long COUNT (class variable)",
        "      int tag (instance variable)"] ∧
    memberLines .constructors (String.join ([widget].map verbose)) =
      ["      public Widget(int, long)"] ∧
    titles (verbose widget) = [.fields, .constructors] ∧
    ∃ written, Table.write ⟨[(["d"], .directory)], []⟩ .empty ⟨.csv, .utf8⟩ .fields "d/f.csv" "a.jar"
      [widget] = .ok written ∧ written.count = 2 := by
  have hunbroken : ∀ record ∈ [widget], record.IsUnbroken := by simpa using widget_isUnbroken
  obtain ⟨hfields, hcount, htitles⟩ := memberLines_verbose [widget] hunbroken "a.jar" .fields
  obtain ⟨hconstructors, -, -⟩ := memberLines_verbose [widget] hunbroken "a.jar" .constructors
  simp only [Table.rows, List.flatMap_singleton, classRows_widget] at hfields hconstructors
  have htarget : (⟨[(["d"], .directory)], []⟩ : FileSystem).target? "d/f.csv" =
      some ["d", "f.csv"] := by
    decide
  have hwrite := Table.write_of_target? htarget .empty ⟨.csv, .utf8⟩ .fields "a.jar" [widget]
  refine ⟨hunbroken, hfields, hconstructors, ?_, _, hwrite, ?_⟩
  · rw [htitles widget (by simp)]
    simp only [classRows_widget]
    rfl
  · rw [hcount _ _ _ _ _ hwrite, hfields]
    rfl

end Listing

end ClassReport
