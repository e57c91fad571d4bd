import ClassReport.Archive.Entry
import ClassReport.Proofs.PathLookup

/-!
# Names below a path

A path that is extended by names: which parts it has, where it starts, and what its last name says
about the file. An archive and a directory tell class files in two ways, an archive by the end of
the whole text and a directory by the extension of the last name. They agree on every name but
`.class` itself (`isClassFile_below`).
-/

namespace ClassReport

/-- What can be the name of something in a directory. -/
structure IsName (name : String) : Prop where
  ne_empty : name ≠ ""
  ne_here : name ≠ "."
  ne_up : name ≠ ".."
  free : '/' ∉ name.toList
  no_nul : '\x00' ∉ name.toList
  short : name.utf8ByteSize ≤ FileSystem.maxNameLength

instance (name : String) : Decidable (IsName name) :=
  decidable_of_iff (name ≠ "" ∧ name ≠ "." ∧ name ≠ ".." ∧ '/' ∉ name.toList ∧
      '\x00' ∉ name.toList ∧ name.utf8ByteSize ≤ FileSystem.maxNameLength)
    ⟨fun h => ⟨h.1, h.2.1, h.2.2.1, h.2.2.2.1, h.2.2.2.2.1, h.2.2.2.2.2⟩,
      fun h => ⟨h.ne_empty, h.ne_here, h.ne_up, h.free, h.no_nul, h.short⟩⟩

namespace Segment

variable {isSeparator : Char → Bool} {first second : List Char} {c : Char}

theorem split_ne_nil (cs : List Char) : split isSeparator cs ≠ [] := by
  cases cs with
  | nil => exact List.cons_ne_nil _ _
  | cons c cs =>
    rw [split]
    split
    · exact List.cons_ne_nil _ _
    · split <;> exact List.cons_ne_nil _ _

theorem split_append (hc : isSeparator c = true) :
    split isSeparator (first ++ c :: second) =
      split isSeparator first ++ split isSeparator second := by
  induction first with
  | nil => simp [split, hc]
  | cons d first ih =>
    cases hd : isSeparator d with
    | true => simp [split, hd, ih]
    | false =>
      obtain ⟨piece, pieces, hpieces⟩ := List.exists_cons_of_ne_nil
        (split_ne_nil first : split isSeparator first ≠ [])
      simp [split, hd, ih, hpieces]

theorem split_of_free (h : ∀ d ∈ first, isSeparator d = false) :
    split isSeparator first = [first] := by
  induction first with
  | nil => rfl
  | cons d first ih =>
    have hd := h d List.mem_cons_self
    have hrest := ih fun other hother => h other (List.mem_cons_of_mem _ hother)
    simp [split, hd, hrest]

/-- What stands in front of a separator does not matter to what stands behind the last one. -/
theorem last_of_append {text rest : String} (hc : isSeparator c = true)
    (h : text.toList = first ++ c :: rest.toList) :
    last isSeparator text = last isSeparator rest := by
  have hreverse : text.toList.reverse = rest.toList.reverse ++ c :: first.reverse := by
    rw [h, List.reverse_append, List.reverse_cons, List.append_assoc, List.singleton_append]
  rw [last, last, hreverse, List.takeWhile_append]
  split
  · rename_i hall
    -- No separator in `rest`: the scan from the end goes through it and stops at `c`.
    have hself := (List.takeWhile_prefix fun d => !isSeparator d).eq_of_length hall
    rw [hself, List.takeWhile_cons_of_neg (by simp [hc]), List.append_nil]
  · rfl

end Segment

variable {path directory name : String} {names : List String}

theorem IsName.toList_ne_nil (h : IsName name) : name.toList ≠ [] :=
  fun hnil => h.ne_empty (String.toList_eq_nil_iff.mp hnil)

namespace Path

/-! ### Text and parts -/

/-- The characters of a path without a closing slash. -/
def stem (path : String) : List Char :=
  if path.toList.getLast? = some '/' then path.toList.dropLast else path.toList

def partsOf (chars : List Char) : List String :=
  ((Segment.split (· == '/') chars).filter (!·.isEmpty)).map String.ofList

theorem partsOf_append (first second : List Char) :
    partsOf (first ++ '/' :: second) = partsOf first ++ partsOf second := by
  rw [partsOf, Segment.split_append (by rfl), List.filter_append, List.map_append]
  rfl

theorem partsOf_name (h : IsName name) : partsOf name.toList = [name] := by
  have hfree : ∀ c ∈ name.toList, (c == '/') = false := by
    intro c hc
    exact beq_eq_false_iff_ne.mpr fun heq => h.free (heq ▸ hc)
  have hfull : name.toList.isEmpty = false := List.isEmpty_eq_false_iff.mpr h.toList_ne_nil
  rw [partsOf, Segment.split_of_free hfree]
  simp [hfull]

theorem partsOf_stem (path : String) : partsOf (stem path) = parts path := by
  rw [stem]
  split
  · rename_i hslash
    obtain ⟨front, hchars⟩ := List.getLast?_eq_some_iff.mp hslash
    show _ = partsOf path.toList
    rw [hchars, partsOf_append, List.dropLast_concat]
    simp [partsOf, Segment.split]
  · rfl

theorem toList_join (directory name : String) :
    (join directory name).toList = stem directory ++ '/' :: name.toList := by
  rw [join, stem]
  split
  · rename_i hslash
    obtain ⟨front, hchars⟩ := List.getLast?_eq_some_iff.mp hslash
    rw [String.toList_append, hchars, List.dropLast_concat, List.append_assoc,
      List.singleton_append]
  · rw [String.toList_append, String.toList_append, List.append_assoc]
    rfl

theorem parts_join (h : IsName name) : parts (join directory name) = parts directory ++ [name] := by
  show partsOf (join directory name).toList = _
  rw [toList_join, partsOf_append, partsOf_stem, partsOf_name h]

theorem getLast?_join_ne (directory : String) (h : IsName name) :
    (join directory name).toList.getLast? ≠ some '/' := by
  intro hslash
  rw [toList_join, List.getLast?_append, List.getLast?_cons_of_ne_nil h.toList_ne_nil,
    List.getLast?_eq_some_getLast h.toList_ne_nil, Option.some_or, Option.some.injEq] at hslash
  exact h.free (hslash ▸ List.getLast_mem h.toList_ne_nil)

theorem stem_join (directory : String) (h : IsName name) :
    stem (join directory name) = (join directory name).toList := by
  rw [stem, if_neg (getLast?_join_ne directory h)]

theorem mem_stem {c : Char} (h : c ∈ stem path) : c ∈ path.toList := by
  rw [stem] at h
  split at h
  · exact (List.dropLast_sublist _).subset h
  · exact h

/-- The path that leads from `path` along some names. -/
def below (path : String) (names : List String) : String := names.foldl join path

theorem parts_below (hnames : ∀ name ∈ names, IsName name) (path : String) :
    parts (below path names) = parts path ++ names := by
  induction names generalizing path with
  | nil => exact (List.append_nil _).symm
  | cons name names ih =>
    have hrest := ih (fun other h => hnames other (List.mem_cons_of_mem _ h)) (join path name)
    show parts (below (join path name) names) = _
    rw [hrest, parts_join (hnames name List.mem_cons_self), List.append_assoc,
      List.singleton_append]

theorem toList_below (hnames : ∀ name ∈ names, IsName name) (hne : names ≠ []) (path : String) :
    (below path names).toList = stem path ++ '/' :: ("/".intercalate names).toList := by
  induction names generalizing path with
  | nil => exact absurd rfl hne
  | cons name names ih =>
    have hname := hnames name List.mem_cons_self
    cases names with
    | nil =>
      rw [String.intercalate_singleton]
      exact toList_join path name
    | cons next names =>
      have hrest := ih (fun other h => hnames other (List.mem_cons_of_mem _ h))
        (List.cons_ne_nil _ _) (join path name)
      show (below (join path name) (next :: names)).toList = _
      rw [hrest, stem_join path hname, toList_join, String.intercalate_cons_cons,
        String.toList_append, String.toList_append]
      simp

theorem mem_below {c : Char} (hnames : ∀ name ∈ names, c ∉ name.toList) (hslash : c ≠ '/')
    (h : c ∈ (below path names).toList) : c ∈ path.toList := by
  induction names generalizing path with
  | nil => exact h
  | cons name names ih =>
    have hjoin : c ∈ (join path name).toList :=
      ih (fun other hother => hnames other (List.mem_cons_of_mem _ hother)) h
    rw [toList_join, List.mem_append, List.mem_cons] at hjoin
    rcases hjoin with hstem | rfl | hname
    · exact mem_stem hstem
    · exact absurd rfl hslash
    · exact absurd hname (hnames name List.mem_cons_self)

theorem getLast?_below_ne (hnames : ∀ name ∈ names, IsName name) (hne : names ≠ []) (path : String) :
    (below path names).toList.getLast? ≠ some '/' := by
  rw [← List.dropLast_concat_getLast hne, below, List.foldl_append]
  exact getLast?_join_ne _ (hnames _ (List.getLast_mem hne))

theorem head?_stem (hpath : path ≠ "") (rest : List Char) :
    (stem path ++ '/' :: rest).head? = path.toList.head? := by
  rw [stem]
  split
  · rename_i hslash
    obtain ⟨front, hchars⟩ := List.getLast?_eq_some_iff.mp hslash
    rw [hchars, List.dropLast_concat]
    cases front <;> rfl
  · obtain ⟨c, chars, hchars⟩ := List.exists_cons_of_ne_nil
      (fun hnil => hpath (String.toList_eq_nil_iff.mp hnil) : path.toList ≠ [])
    rw [hchars]
    rfl

theorem isAbsolute_below (hnames : ∀ name ∈ names, IsName name) (hne : names ≠ [])
    (hpath : path ≠ "") : isAbsolute (below path names) = isAbsolute path := by
  rw [isAbsolute, toList_below hnames hne, head?_stem hpath, isAbsolute]

/-! ### The last name -/

theorem getLast?_components {others : List String} (hparts : parts path = others ++ [name])
    (h : IsName name) : (components path).getLast? = some (.normal name) := by
  have hpart : Component.ofPart? name = some (.normal name) := by
    rw [Component.ofPart?, if_neg h.ne_here, if_neg h.ne_up]
  have hlast (front : List String) :
      ((front ++ [name]).filterMap Component.ofPart?).getLast? = some (.normal name) := by
    rw [List.filterMap_append, List.filterMap_cons_some hpart, List.filterMap_nil,
      List.getLast?_concat]
  have hcons (first : Component) (front : List String) :
      (first :: (front ++ [name]).filterMap Component.ofPart?).getLast? = some (.normal name) := by
    rw [List.getLast?_cons, hlast, Option.getD_some]
  rw [components, hparts]
  split
  · exact hcons .root others
  · split
    · rename_i rest hdot
      cases others with
      | nil =>
        cases hdot
        exact absurd rfl h.ne_here
      | cons first front =>
        cases hdot
        exact hcons .current front
    · exact hlast others

theorem fileName?_below (hnames : ∀ other ∈ names ++ [name], IsName other) (path : String) :
    fileName? (below path (names ++ [name])) = some name := by
  have hparts : parts (below path (names ++ [name])) = (parts path ++ names) ++ [name] := by
    rw [parts_below hnames, List.append_assoc]
  rw [fileName?, getLast?_components hparts (hnames name (by simp))]

def classEnd : List Char := ".class".toList

/-- What stands behind the last dot is `class`, with something in front of that dot. -/
theorem class_behind_dot_iff {chars : List Char} :
    (chars.reverse.takeWhile (· != '.')).reverse = "class".toList ∧
        (chars.reverse.dropWhile (· != '.')).drop 1 ≠ [] ↔
      ∃ front, front ≠ [] ∧ chars = front ++ classEnd := by
  constructor
  · rintro ⟨hends, hfront⟩
    have hsplit : chars.reverse.takeWhile (· != '.') ++ chars.reverse.dropWhile (· != '.') =
        chars.reverse := List.takeWhile_append_dropWhile
    have hdot := List.head?_dropWhile_not (· != '.') chars.reverse
    cases hrest : chars.reverse.dropWhile (· != '.') with
    | nil =>
      rw [hrest] at hfront
      exact absurd rfl hfront
    | cons c rest =>
      rw [hrest] at hfront hsplit hdot
      have hc : c = '.' := by simpa using hdot
      refine ⟨rest.reverse, by simpa using hfront, ?_⟩
      rw [← List.reverse_reverse chars, ← hsplit, List.reverse_append, hends, List.reverse_cons, hc,
        List.append_assoc]
      rfl
  · rintro ⟨front, hne, rfl⟩
    have hreverse : (front ++ classEnd).reverse =
        's' :: 's' :: 'a' :: 'l' :: 'c' :: '.' :: front.reverse := by
      rw [List.reverse_append]
      rfl
    rw [hreverse]
    refine ⟨by simp [List.takeWhile], ?_⟩
    simpa [List.dropWhile] using hne

theorem ofList_eq_iff {chars : List Char} {text : String} :
    String.ofList chars = text ↔ chars = text.toList := by
  rw [← String.toList_inj, String.toList_ofList]

/-- A name has the extension `class` if it ends so and begins with something else. -/
theorem isClassFile_iff (h : fileName? path = some name) :
    isClassFile path = true ↔ classEnd <:+ name.toList ∧ name ≠ ".class" := by
  have hextension : isClassFile path = true ↔
      Segment.last (· == '.') name = "class" ∧ Segment.beforeLast '.' name ≠ "" := by
    rw [isClassFile, extension?, h]
    by_cases hfront : Segment.beforeLast '.' name = ""
    · simp [hfront]
    · simp [hfront]
  have hbehind : isClassFile path = true ↔
      ∃ front, front ≠ [] ∧ name.toList = front ++ classEnd := by
    rw [hextension, ← class_behind_dot_iff, Segment.last, Segment.beforeLast, ofList_eq_iff, Ne,
      ofList_eq_iff]
    simp [bne]
  rw [hbehind]
  constructor
  · rintro ⟨front, hne, hname⟩
    refine ⟨⟨front, hname.symm⟩, ?_⟩
    rintro rfl
    have hlength := congrArg List.length hname
    have hpos := List.length_pos_iff.mpr hne
    rw [List.length_append] at hlength
    have hsix : ".class".toList.length = classEnd.length := rfl
    omega
  · rintro ⟨⟨front, hname⟩, hne⟩
    refine ⟨front, ?_, hname.symm⟩
    rintro rfl
    exact hne (String.toList_inj.mp hname.symm)

/-- An ending without a slash is that of the last name. -/
theorem classEnd_suffix_append (first second : List Char) :
    classEnd <:+ first ++ '/' :: second ↔ classEnd <:+ second := by
  constructor
  · intro h
    have hrest : '/' :: second <:+ first ++ '/' :: second := List.suffix_append _ _
    rcases List.suffix_or_suffix_of_suffix h hrest with hend | hend
    · rcases List.suffix_cons_iff.mp hend with heq | hend
      · have hmem : '/' ∈ classEnd := by
          rw [heq]
          exact List.mem_cons_self
        exact absurd hmem (by decide)
      · exact hend
    · exact absurd (hend.subset List.mem_cons_self) (by decide)
  · intro h
    exact (h.trans (List.suffix_cons _ _)).trans (List.suffix_append _ _)

theorem classEnd_suffix_joined (names : List String) (name : String) :
    classEnd <:+ ("/".intercalate (names ++ [name])).toList ↔ classEnd <:+ name.toList := by
  by_cases hnil : names = []
  · rw [hnil, List.nil_append, String.intercalate_singleton]
  · rw [String.intercalate_append_of_ne_nil hnil (List.cons_ne_nil _ _),
      String.intercalate_singleton, String.toList_append, String.toList_append, List.append_assoc]
    exact classEnd_suffix_append _ _

theorem isDescriptorClass_below (hnames : ∀ name ∈ names, IsName name) (hne : names ≠ [])
    (path : String) :
    isDescriptorClass (below path names) = isDescriptorClass ("/".intercalate names) := by
  rw [isDescriptorClass, Segment.last_of_append (by rfl) (toList_below hnames hne path),
    isDescriptorClass]

/-- Below a directory those files are taken for classes that an archive would take, but none that has
no name before the ending. -/
theorem isClassFile_below (hnames : ∀ other ∈ names ++ [name], IsName other) (path : String) :
    (isClassFile (below path (names ++ [name])) &&
        !isDescriptorClass (below path (names ++ [name]))) =
      (Archive.isClassEntry ("/".intercalate (names ++ [name])) && name != ".class") := by
  have hclass : isClassFile (below path (names ++ [name])) =
      (classEnd.isSuffixOf ("/".intercalate (names ++ [name])).toList && name != ".class") := by
    rw [Bool.eq_iff_iff, isClassFile_iff (fileName?_below hnames path), Bool.and_eq_true,
      List.isSuffixOf_iff_suffix, classEnd_suffix_joined, bne_iff_ne]
  rw [hclass, isDescriptorClass_below hnames (by simp), Archive.isClassEntry]
  show _ = (classEnd.isSuffixOf _ && _ && _)
  rw [Bool.and_right_comm]

end Path

end ClassReport
