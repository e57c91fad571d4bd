import ClassReport.Charset.Kana
import ClassReport.Settings

/-!
# Values of options

A command line is spelled item by item: a path stands alone, a flag is its name, and the value of an
option is joined to the name by an equals sign or stands behind it (`Spelled`). Reading finds exactly the
items that are spelled (`parse_eq_ok_iff`). What a run does depends on the items of each option only and
not on how those of different options are mixed, and of most options only on the first value
(`Settings.settings_by_option`).
-/

namespace ClassReport

def ValueOption.name : ValueOption → String
  | .package => "package"
  | .methodsCsv => "methods-csv"
  | .fieldsCsv => "fields-csv"
  | .constructorsCsv => "constructors-csv"
  | .format => "format"
  | .charset => "charset"

def FlagOption.name : FlagOption → String
  | .verbose => "verbose"
  | .quiet => "quiet"

namespace CommandLine

/-! ### Spelling -/

/-- The text may stand where a path or a value is expected. -/
def StandsAlone (text : String) : Prop := text = "-" ∨ text.toList.head? ≠ some '-'

/-- The arguments say these items, in this order. -/
inductive Spelled : List String → List CommandItem → Prop
  | nil : Spelled [] []
  | path {text : String} {rest : List String} {items : List CommandItem} (halone : StandsAlone text)
      (h : Spelled rest items) : Spelled (text :: rest) (.path text :: items)
  | flag (option : FlagOption) {rest : List String} {items : List CommandItem} (h : Spelled rest items) :
      Spelled (("--" ++ option.name) :: rest) (.flag option :: items)
  | joined (option : ValueOption) (text : String) {rest : List String} {items : List CommandItem}
      (h : Spelled rest items) :
      Spelled (("--" ++ option.name ++ "=" ++ text) :: rest) (.value option text :: items)
  | apart (option : ValueOption) {text : String} {rest : List String} {items : List CommandItem}
      (halone : StandsAlone text) (h : Spelled rest items) :
      Spelled (("--" ++ option.name) :: text :: rest) (.value option text :: items)

/-! ### The shape of an argument -/

theorem shape_eq_plain_iff {text : String} : ArgumentShape.of text = .plain ↔ StandsAlone text := by
  have hdash : text = "-" ↔ text.toList = ['-'] := String.toList_inj.symm
  rw [StandsAlone, hdash, ArgumentShape.of]
  split
  · simp_all
  · simp_all
  · simp_all
  · rename_i hother
    refine ⟨fun _ => ?_, fun _ => rfl⟩
    match text.toList, hother with
    | [], _ => exact .inr (by simp)
    | c :: rest, hother =>
      by_cases hc : c = '-'
      · cases rest with
        | nil => exact .inl (by rw [hc])
        | cons letter rest => exact absurd (by rw [hc]) (hother letter rest)
      · exact .inr (by simpa using hc)

theorem valueError?_eq_none_iff (shape : ArgumentShape) : shape.valueError? = none ↔ shape = .plain := by
  cases shape with
  | plain => simp [ArgumentShape.valueError?]
  | separator => simp [ArgumentShape.valueError?]
  | short isHelp => simp [ArgumentShape.valueError?]
  | long name value =>
    simp only [ArgumentShape.valueError?]
    split <;> simp

theorem ofName?_eq_value_iff {name : String} {option : ValueOption} :
    LongOption.ofName? name = some (.value option) ↔ name = option.name := by
  constructor
  · intro h
    unfold LongOption.ofName? at h
    split at h <;> cases h <;> rfl
  · rintro rfl
    cases option <;> rfl

theorem ofName?_eq_flag_iff {name : String} {option : FlagOption} :
    LongOption.ofName? name = some (.flag option) ↔ name = option.name := by
  constructor
  · intro h
    unfold LongOption.ofName? at h
    split at h <;> cases h <;> rfl
  · rintro rfl
    cases option <;> rfl

section Split

variable {name : List Char} (hname : '=' ∉ name)
include hname

theorem free_of_notMem : ∀ c ∈ name, (c != '=') = true :=
  fun _ hc => bne_iff_ne.mpr fun h => hname (h ▸ hc)

theorem splitLong_append (value : List Char) :
    splitLong (name ++ '=' :: value) = (String.ofList name, some (String.ofList value)) := by
  have htake : (name ++ '=' :: value).takeWhile (· != '=') = name ++ [] :=
    List.takeWhile_append_of_pos (free_of_notMem hname)
  have hdrop : (name ++ '=' :: value).dropWhile (· != '=') = '=' :: value :=
    List.dropWhile_append_of_pos (free_of_notMem hname)
  rw [splitLong, htake, hdrop, List.append_nil]

theorem splitLong_name : splitLong name = (String.ofList name, none) := by
  have htake : (name ++ []).takeWhile (· != '=') = name ++ [] :=
    List.takeWhile_append_of_pos (free_of_notMem hname)
  have hdrop : (name ++ []).dropWhile (· != '=') = [] :=
    List.dropWhile_append_of_pos (free_of_notMem hname)
  rw [List.append_nil] at htake hdrop
  rw [splitLong, htake, hdrop]

end Split

/-- Every text is a name, or a name and a value behind an equals sign. -/
theorem exists_split (text : List Char) :
    '=' ∉ text ∨ ∃ name value, '=' ∉ name ∧ text = name ++ '=' :: value := by
  by_cases h : '=' ∈ text
  · obtain ⟨name, value, rfl, hname⟩ := List.eq_append_cons_of_mem h
    exact .inr ⟨name, value, hname, rfl⟩
  · exact .inl h

/-- A long argument behind its dashes. -/
theorem shape_of_dashes {argument : String} {text : List Char} (h : argument.toList = '-' :: '-' :: text)
    (hne : text ≠ []) : ArgumentShape.of argument = .long (splitLong text).1 (splitLong text).2 := by
  rw [ArgumentShape.of, h]
  cases text with
  | nil => exact absurd rfl hne
  | cons c text => rfl

theorem shape_name {name : String} (hfree : '=' ∉ name.toList) (hne : name ≠ "") :
    ArgumentShape.of ("--" ++ name) = .long name none := by
  have htext : ("--" ++ name).toList = '-' :: '-' :: name.toList := String.toList_append
  have hchars : name.toList ≠ [] := fun h => hne (String.toList_inj.mp h)
  rw [shape_of_dashes htext hchars, splitLong_name hfree, String.ofList_toList]

theorem shape_joined {name : String} (hfree : '=' ∉ name.toList) (value : String) :
    ArgumentShape.of ("--" ++ name ++ "=" ++ value) = .long name (some value) := by
  have htext : ("--" ++ name ++ "=" ++ value).toList =
      '-' :: '-' :: (name.toList ++ '=' :: value.toList) := by
    simp only [String.toList_append, List.append_assoc]
    rfl
  rw [shape_of_dashes htext (by simp), splitLong_append hfree, String.ofList_toList, String.ofList_toList]

/-- A long argument is its name behind two dashes, and its value, if it has one, behind an equals sign. -/
theorem argument_of_long {argument name : String} {value : Option String}
    (h : ArgumentShape.of argument = .long name value) :
    (value = none ∧ argument = "--" ++ name) ∨
      ∃ text, value = some text ∧ argument = "--" ++ name ++ "=" ++ text := by
  obtain ⟨text, htext, hsplit⟩ : ∃ text, argument.toList = '-' :: '-' :: text ∧
      splitLong text = (name, value) := by
    unfold ArgumentShape.of at h
    split at h <;> cases h
    rename_i text _ htext
    exact ⟨text, htext, rfl⟩
  obtain hfree | ⟨front, back, hfree, rfl⟩ := exists_split text
  · rw [splitLong_name hfree, Prod.mk.injEq] at hsplit
    obtain ⟨rfl, rfl⟩ := hsplit
    refine .inl ⟨rfl, String.toList_inj.mp ?_⟩
    simp only [htext, String.toList_append, String.toList_ofList]
    rfl
  · rw [splitLong_append hfree, Prod.mk.injEq] at hsplit
    obtain ⟨rfl, rfl⟩ := hsplit
    refine .inr ⟨_, rfl, String.toList_inj.mp ?_⟩
    simp only [htext, String.toList_append, String.toList_ofList, List.append_assoc]
    rfl

theorem free_valueName (option : ValueOption) : '=' ∉ option.name.toList := by
  cases option <;> decide

theorem free_flagName (option : FlagOption) : '=' ∉ option.name.toList := by
  cases option <;> decide

/-! ### Reading what is spelled -/

variable {arguments : List String} {items : List CommandItem}

theorem Spelled.commandItems_eq (h : Spelled arguments items) : commandItems arguments = .ok items := by
  induction h with
  | nil => rfl
  | path halone _ ih =>
    rw [commandItems]
    simp only [shape_eq_plain_iff.mpr halone, ih]
    rfl
  | flag option _ ih =>
    have hname : option.name ≠ "" := by cases option <;> decide
    rw [commandItems]
    simp only [shape_name (free_flagName option) hname, ofName?_eq_flag_iff.mpr rfl, ih]
    rfl
  | joined option text _ ih =>
    rw [commandItems]
    simp only [shape_joined (free_valueName option), ofName?_eq_value_iff.mpr rfl, ih]
    rfl
  | @apart option text rest items halone _ ih =>
    have hname : option.name ≠ "" := by cases option <;> decide
    have hvalue := (valueError?_eq_none_iff _).mpr (shape_eq_plain_iff.mpr halone)
    rw [commandItems]
    simp only [shape_name (free_valueName option) hname, ofName?_eq_value_iff.mpr rfl, hvalue, ih]
    rfl

theorem eq_separator {argument : String} (h : ArgumentShape.of argument = .separator) : argument = "--" := by
  unfold ArgumentShape.of at h
  split at h <;> cases h
  rename_i htext
  exact String.toList_inj.mp htext

theorem map_cons_eq_ok {item : CommandItem} {outcome : Except CommandStop (List CommandItem)}
    (h : outcome.map (item :: ·) = .ok items) : ∃ rest, outcome = .ok rest ∧ items = item :: rest := by
  cases outcome with
  | error e => cases h
  | ok rest =>
    cases h
    exact ⟨rest, rfl, rfl⟩

theorem spelled_of_commandItems (hseparator : "--" ∉ arguments) (h : commandItems arguments = .ok items) :
    Spelled arguments items := by
  fun_induction commandItems arguments generalizing items with
  | case1 =>
    cases h
    exact .nil
  | case2 argument rest hshape ih =>
    obtain ⟨more, hmore, rfl⟩ := map_cons_eq_ok h
    exact .path (shape_eq_plain_iff.mp hshape) (ih (List.not_mem_of_not_mem_cons hseparator) hmore)
  | case3 argument rest hshape =>
    exact absurd (eq_separator hshape) (List.ne_of_not_mem_cons hseparator).symm
  | case6 argument rest name option hoption hshape ih =>
    obtain ⟨more, hmore, rfl⟩ := map_cons_eq_ok h
    have hrest := ih (List.not_mem_of_not_mem_cons hseparator) hmore
    obtain ⟨-, rfl⟩ | ⟨_, hvalue, -⟩ := argument_of_long hshape
    · rw [ofName?_eq_flag_iff.mp hoption]
      exact .flag option hrest
    · cases hvalue
  | case10 argument rest name option text hoption hshape ih =>
    obtain ⟨more, hmore, rfl⟩ := map_cons_eq_ok h
    have hrest := ih (List.not_mem_of_not_mem_cons hseparator) hmore
    obtain ⟨hvalue, -⟩ | ⟨_, hvalue, rfl⟩ := argument_of_long hshape
    · cases hvalue
    · cases hvalue
      rw [ofName?_eq_value_iff.mp hoption]
      exact .joined option text hrest
  | case13 argument name option hoption text rest htext hshape ih =>
    obtain ⟨more, hmore, rfl⟩ := map_cons_eq_ok h
    have hrest := ih
      (List.not_mem_of_not_mem_cons (List.not_mem_of_not_mem_cons hseparator)) hmore
    have halone := shape_eq_plain_iff.mp ((valueError?_eq_none_iff _).mp htext)
    obtain ⟨-, rfl⟩ | ⟨_, hvalue, -⟩ := argument_of_long hshape
    · rw [ofName?_eq_value_iff.mp hoption]
      exact .apart option halone hrest
    · cases hvalue
  | case4 | case5 | case7 | case8 | case9 | case11 | case12 => cases h

theorem parse_eq_ok_iff {line : CommandLine} (hseparator : "--" ∉ arguments) :
    parse arguments = .ok line ↔ Spelled arguments line.items := by
  constructor
  · intro h
    rw [parse] at h
    cases hitems : commandItems arguments with
    | error e =>
      rw [hitems] at h
      cases h
    | ok items =>
      rw [hitems] at h
      cases h
      exact spelled_of_commandItems hseparator hitems
  · intro h
    rw [parse, h.commandItems_eq]
    rfl

theorem Spelled.parse_eq (h : Spelled arguments items) : parse arguments = .ok ⟨items⟩ := by
  rw [parse, h.commandItems_eq]
  rfl

theorem Spelled.append {more : List String} {last : List CommandItem} (h : Spelled arguments items)
    (hmore : Spelled more last) : Spelled (arguments ++ more) (items ++ last) := by
  induction h with
  | nil => exact hmore
  | path halone _ ih => exact .path halone ih
  | flag option _ ih => exact .flag option ih
  | joined option text _ ih => exact .joined option text ih
  | apart option halone _ ih => exact .apart option halone ih

theorem Spelled.split_append {first last : List CommandItem} (h : Spelled arguments (first ++ last)) :
    ∃ before after, arguments = before ++ after ∧ Spelled before first ∧ Spelled after last := by
  induction first generalizing arguments with
  | nil => exact ⟨[], arguments, rfl, .nil, h⟩
  | cons item first ih =>
    cases h with
    | path halone h =>
      obtain ⟨before, after, rfl, hbefore, hafter⟩ := ih h
      exact ⟨_ :: before, after, rfl, .path halone hbefore, hafter⟩
    | flag option h =>
      obtain ⟨before, after, rfl, hbefore, hafter⟩ := ih h
      exact ⟨_ :: before, after, rfl, .flag option hbefore, hafter⟩
    | joined option text h =>
      obtain ⟨before, after, rfl, hbefore, hafter⟩ := ih h
      exact ⟨_ :: before, after, rfl, .joined option text hbefore, hafter⟩
    | apart option halone h =>
      obtain ⟨before, after, rfl, hbefore, hafter⟩ := ih h
      exact ⟨_ :: _ :: before, after, rfl, .apart option halone hbefore, hafter⟩

/-! ### What a run looks at -/

/-- The paths are the same, each flag is given as often, and each of these options has the same values in
the same order. How items of different kinds are mixed may differ. -/
structure AgreeOn (options : ValueOption → Prop) (line other : CommandLine) : Prop where
  paths : line.paths = other.paths
  values : ∀ option, options option → line.values option = other.values option
  flags : ∀ option, line.items.count (.flag option) = other.items.count (.flag option)

/-- The item says nothing that an item before it has not said, or for a flag any other item. -/
inductive Repeats (first last : List CommandItem) : CommandItem → Prop
  | value {option : ValueOption} {earlier text : String} (honce : option ≠ .package)
      (h : .value option earlier ∈ first) : Repeats first last (.value option text)
  | flag {option : FlagOption} (h : .flag option ∈ first ++ last) : Repeats first last (.flag option)

/-- Nothing that a run looks at tells the two apart. -/
structure Alike (line other : CommandLine) : Prop where
  paths : line.paths = other.paths
  packages : line.values .package = other.values .package
  first : ∀ option, option ≠ .package → line.firstValue? option = other.firstValue? option
  flags : ∀ option, line.has option = other.has option

variable {line other : CommandLine}

theorem AgreeOn.alike (h : AgreeOn (fun _ => True) line other) : Alike line other where
  paths := h.paths
  packages := h.values .package trivial
  first option _ := congrArg List.head? (h.values option trivial)
  flags option := by rw [has, has, count, count, h.flags option]

theorem has_eq_decide (line : CommandLine) (option : FlagOption) :
    line.has option = decide (.flag option ∈ line.items) := by
  have hcount : 0 < line.items.count (.flag option) ↔ .flag option ∈ line.items := List.count_pos_iff
  rw [has, count, maxCount]
  exact decide_eq_decide.mpr (by rw [← hcount]; omega)

section Between

variable {α β : Type} {f : α → Option β} {first last : List α} {x : α}

theorem filterMap_between (h : f x = none) :
    (first ++ x :: last).filterMap f = (first ++ last).filterMap f := by
  rw [List.filterMap_append, List.filterMap_append, List.filterMap_cons_none h]

/-- The head is found in the first part if anything is. -/
theorem head?_filterMap_between {y : α} (hy : y ∈ first) (hf : (f y).isSome = true) :
    ((first ++ x :: last).filterMap f).head? = ((first ++ last).filterMap f).head? := by
  obtain ⟨value, hvalue⟩ := Option.isSome_iff_exists.mp hf
  have hmem : value ∈ first.filterMap f := List.mem_filterMap.mpr ⟨y, hy, hvalue⟩
  obtain ⟨head, rest, hfirst⟩ := List.exists_cons_of_ne_nil (List.ne_nil_of_mem hmem)
  rw [List.filterMap_append, List.filterMap_append, hfirst]
  rfl

end Between

theorem value?_of_ne {option asked : ValueOption} (h : option ≠ asked) (text : String) :
    value? asked (.value option text) = none := if_neg h

theorem Repeats.alike {first last : List CommandItem} {item : CommandItem} (h : Repeats first last item) :
    Alike ⟨first ++ item :: last⟩ ⟨first ++ last⟩ := by
  cases h with
  | @value option earlier text honce h =>
    constructor
    · exact filterMap_between rfl
    · exact filterMap_between (value?_of_ne honce text)
    · intro asked _
      rw [firstValue?, firstValue?, values, values]
      by_cases hasked : option = asked
      · have hsome : (value? asked (.value option earlier)).isSome = true := by
          rw [value?, if_pos hasked]
          rfl
        exact head?_filterMap_between h hsome
      · rw [filterMap_between (value?_of_ne hasked text)]
    · intro flag
      rw [has_eq_decide, has_eq_decide]
      simp
  | @flag option h =>
    constructor
    · exact filterMap_between rfl
    · exact filterMap_between rfl
    · intro asked _
      rw [firstValue?, firstValue?, values, values, filterMap_between rfl]
    · intro flag
      rw [has_eq_decide, has_eq_decide]
      refine decide_eq_decide.mpr ⟨fun hflag => ?_, fun hflag => ?_⟩
      · obtain hfirst | hflag := List.mem_append.mp hflag
        · exact List.mem_append_left last hfirst
        · obtain hsame | hlast := List.mem_cons.mp hflag
          · rwa [hsame]
          · exact List.mem_append_right first hlast
      · obtain hfirst | hlast := List.mem_append.mp hflag
        · exact List.mem_append_left _ hfirst
        · exact List.mem_append_right first (List.mem_cons_of_mem _ hlast)

end CommandLine

namespace Settings
open CommandLine

variable {line other : CommandLine} (encoders : Charset.Encoders)

theorem targetOption_ne_package (kind : TableKind) : targetOption kind ≠ .package := by
  cases kind <;> decide

theorem targetsOf_eq (h : ∀ kind, line.firstValue? (targetOption kind) = other.firstValue? (targetOption kind)) :
    targetsOf line = targetsOf other := by
  simp only [targetsOf, h]

theorem styleOf_alike (h : Alike line other) : styleOf encoders line = styleOf encoders other := by
  have htargets := targetsOf_eq fun kind => h.first _ (targetOption_ne_package kind)
  rw [styleOf, styleOf, htargets, h.first .format (by decide), h.first .charset (by decide)]

theorem ofCommandLine_alike (h : Alike line other) (files : FileSystem) :
    ofCommandLine encoders files line = ofCommandLine encoders files other := by
  have htargets := targetsOf_eq fun kind => h.first _ (targetOption_ne_package kind)
  rw [ofCommandLine, ofCommandLine, h.paths, h.packages, h.flags, h.flags, htargets,
    styleOf_alike encoders h]

theorem warnings_alike (h : Alike line other) : warnings encoders line = warnings encoders other :=
  congrArg Prod.snd (styleOf_alike encoders h)

/-! ### Format and charset -/

theorem targetsOf_eq_nil_iff : targetsOf line = [] ↔ ∀ kind, line.values (targetOption kind) = [] := by
  simp only [targetsOf, List.filterMap_eq_nil_iff, Option.map_eq_none_iff, firstValue?,
    List.head?_eq_none_iff]
  constructor
  · intro h kind
    exact h kind (by cases kind <;> decide)
  · exact fun h kind _ => h kind

theorem styleOf_of_no_target (h : targetsOf line = []) : styleOf encoders line = (.standard, []) := by
  rw [styleOf, h]
  rfl

/-- The warning of a value, if one is given that is not known. -/
def unknownWarning (isKnown : String → Bool) (message : String → String) : Option String → Log
  | some value => if isKnown value then [] else [⟨.warn, message value⟩]
  | none => []

theorem length_unknownWarning (isKnown : String → Bool) (message : String → String)
    (value : Option String) : (unknownWarning isKnown message value).length ≤ 1 := by
  cases value with
  | none => exact Nat.zero_le _
  | some value =>
    rw [unknownWarning]
    split
    · exact Nat.zero_le _
    · exact Nat.le_refl _

/-- What is warned of the format. -/
def formatWarning (line : CommandLine) : Log :=
  unknownWarning (fun name => (TableFormat.ofName? name).isSome)
    (fun name => "Unknown format '" ++ name ++ "', using CSV") (line.values .format).head?

/-- What is warned of the charset. -/
def charsetWarning (encoders : Charset.Encoders) (line : CommandLine) : Log :=
  unknownWarning (fun label => (Charset.ofLabel? encoders label).isSome)
    (fun label => "Invalid charset '" ++ label ++ "', using UTF-8") (line.values .charset).head?

theorem resolve_format (line : CommandLine) :
    (TableFormat.resolve ((line.firstValue? .format).getD "csv")).2 = formatWarning line := by
  rw [formatWarning, firstValue?]
  cases (line.values .format).head? with
  | none => decide +kernel
  | some name =>
    rw [Option.getD_some, TableFormat.resolve, unknownWarning]
    cases TableFormat.ofName? name <;> rfl

theorem resolve_charset (line : CommandLine) :
    (Charset.resolve encoders ((line.firstValue? .charset).getD "UTF-8")).2 =
      charsetWarning encoders line := by
  rw [charsetWarning, firstValue?]
  cases (line.values .charset).head? with
  | none =>
    rw [Option.getD_none, Charset.resolve, Charset.ofLabel?_default]
    rfl
  | some label =>
    rw [Option.getD_some, Charset.resolve, unknownWarning]
    cases Charset.ofLabel? encoders label <;> rfl

theorem warnings_of_target (h : targetsOf line ≠ []) :
    warnings encoders line = formatWarning line ++ charsetWarning encoders line := by
  have hasks : (targetsOf line).isEmpty = false := by simpa using h
  rw [warnings, styleOf, hasks, if_neg Bool.false_ne_true, TableStyle.resolve, resolve_format,
    resolve_charset]

/-- Without a table nothing depends on the format and the charset. -/
theorem ofCommandLine_of_no_target (files : FileSystem) (hnone : targetsOf line = [])
    (h : AgreeOn (fun option => option ≠ .format ∧ option ≠ .charset) line other) :
    ofCommandLine encoders files line = ofCommandLine encoders files other ∧ targetsOf other = [] := by
  have hother : targetsOf other = [] := by
    rw [targetsOf_eq_nil_iff] at hnone ⊢
    intro kind
    rw [← h.values _ (by cases kind <;> decide), hnone kind]
  have hpackages := h.values .package (by decide)
  have hflags (option : FlagOption) : line.has option = other.has option := by
    rw [has, has, count, count, h.flags option]
  refine ⟨?_, hother⟩
  rw [ofCommandLine, ofCommandLine, h.paths, hpackages, hflags, hflags, hnone, hother,
    styleOf_of_no_target encoders hnone, styleOf_of_no_target encoders hother]

/-- A run depends only on the items that a command line says of each option: however they are mixed and
spelled, the settings and the warnings are the same, and an item that says nothing new may be left out.
Format and charset count only beside a table, and then each is warned of once at most. -/
theorem settings_by_option (encoders : Charset.Encoders) (files : FileSystem) :
    (∀ arguments line, "--" ∉ arguments →
      (parse arguments = .ok line ↔ Spelled arguments line.items)) ∧
    (∀ arguments others items otherItems, Spelled arguments items → Spelled others otherItems →
      AgreeOn (fun _ => True) ⟨items⟩ ⟨otherItems⟩ →
      ∃ line other, parse arguments = .ok line ∧ parse others = .ok other ∧
        ofCommandLine encoders files line = ofCommandLine encoders files other ∧
        warnings encoders line = warnings encoders other) ∧
    (∀ arguments first item last, Spelled arguments (first ++ item :: last) → Repeats first last item →
      ∃ before middle after, arguments = before ++ middle ++ after ∧
        Spelled before first ∧ Spelled middle [item] ∧ Spelled after last ∧
        ∃ line other, parse arguments = .ok line ∧ parse (before ++ after) = .ok other ∧
          ofCommandLine encoders files line = ofCommandLine encoders files other ∧
          warnings encoders line = warnings encoders other) ∧
    (∀ line other, (∀ kind, line.values (targetOption kind) = []) →
      AgreeOn (fun option => option ≠ .format ∧ option ≠ .charset) line other →
      ofCommandLine encoders files line = ofCommandLine encoders files other ∧
        warnings encoders line = [] ∧ warnings encoders other = []) ∧
    ∀ line, (∃ kind, line.values (targetOption kind) ≠ []) →
      warnings encoders line = formatWarning line ++ charsetWarning encoders line ∧
        (formatWarning line).length ≤ 1 ∧ (charsetWarning encoders line).length ≤ 1 := by
  refine ⟨fun _ _ => parse_eq_ok_iff, ?_, ?_, ?_, ?_⟩
  · intro arguments others items otherItems hspelled hothers hagree
    have halike := hagree.alike
    exact ⟨_, _, hspelled.parse_eq, hothers.parse_eq, ofCommandLine_alike encoders halike files,
      warnings_alike encoders halike⟩
  · intro arguments first item last hspelled hrepeats
    have halike := hrepeats.alike
    obtain ⟨before, rest, rfl, hbefore, hrest⟩ := hspelled.split_append
    obtain ⟨middle, after, rfl, hmiddle, hafter⟩ :=
      Spelled.split_append (show Spelled rest ([item] ++ last) from hrest)
    exact ⟨before, middle, after, (List.append_assoc ..).symm, hbefore, hmiddle, hafter, _, _,
      hspelled.parse_eq, (hbefore.append hafter).parse_eq, ofCommandLine_alike encoders halike files,
      warnings_alike encoders halike⟩
  · intro line other hnone hagree
    have htargets := targetsOf_eq_nil_iff.mpr hnone
    obtain ⟨hsettings, hother⟩ := ofCommandLine_of_no_target encoders files htargets hagree
    exact ⟨hsettings, congrArg Prod.snd (styleOf_of_no_target encoders htargets),
      congrArg Prod.snd (styleOf_of_no_target encoders hother)⟩
  · rintro line ⟨kind, hkind⟩
    have htargets : targetsOf line ≠ [] := fun hnone => hkind (targetsOf_eq_nil_iff.mp hnone kind)
    exact ⟨warnings_of_target encoders htargets, length_unknownWarning .., length_unknownWarning ..⟩

/-- A format that is not known is given first, then another, which counts for nothing. -/
def sampleItems : List CommandItem :=
  [.value .format "nope", .path "a.jar", .value .methodsCsv "m.csv", .value .format "-"]

/-- The sample with its values spelled and mixed in another way, then without what it repeats; and, without
a table, the first format alone. -/
theorem settings_by_option_sample :
    (∃ line other,
      parse ["--format=nope", "a.jar", "--methods-csv", "m.csv", "--format", "-"] = .ok line ∧
      parse ["--methods-csv=m.csv", "--format", "nope", "--format=-", "a.jar"] = .ok other ∧
      ofCommandLine .kana ⟨[], []⟩ line = ofCommandLine .kana ⟨[], []⟩ other ∧
      warnings .kana line = warnings .kana other) ∧
    (∃ before middle after,
      ["--format=nope", "a.jar", "--methods-csv", "m.csv", "--format", "-"] = before ++ middle ++ after ∧
      Spelled middle [.value .format "-"] ∧
      ∃ line other, parse (before ++ middle ++ after) = .ok line ∧ parse (before ++ after) = .ok other ∧
        ofCommandLine .kana ⟨[], []⟩ line = ofCommandLine .kana ⟨[], []⟩ other ∧
        warnings .kana line = warnings .kana other) ∧
    warnings .kana ⟨[.value .format "nope"]⟩ = [] ∧
    warnings .kana ⟨sampleItems⟩ = [⟨.warn, "Unknown format 'nope', using CSV"⟩] := by
  obtain ⟨hread, hmixed, hrepeat, hnone, hsome⟩ := settings_by_option .kana ⟨[], []⟩
  have hfirst : Spelled ["--format=nope", "a.jar", "--methods-csv", "m.csv", "--format", "-"]
      sampleItems :=
    (hread _ ⟨sampleItems⟩ (by decide)).mp rfl
  have hsecond : Spelled ["--methods-csv=m.csv", "--format", "nope", "--format=-", "a.jar"]
      [.value .methodsCsv "m.csv", .value .format "nope", .value .format "-", .path "a.jar"] :=
    (hread _ ⟨_⟩ (by decide)).mp rfl
  refine ⟨hmixed _ _ _ _ hfirst hsecond ⟨by decide, ?_, ?_⟩, ?_, ?_, ?_⟩
  · intro option _
    cases option <;> decide
  · intro option
    cases option <;> decide
  · obtain ⟨before, middle, after, hsplit, -, hmiddle, -, hsame⟩ :=
      hrepeat _ (sampleItems.take 3) (.value .format "-") [] hfirst
        (.value (by decide) (List.mem_cons_self))
    exact ⟨before, middle, after, hsplit, hmiddle, by rwa [hsplit] at hsame⟩
  · refine (hnone ⟨[.value .format "nope"]⟩ ⟨[]⟩ (fun kind => ?_) ⟨rfl, ?_, fun _ => rfl⟩).2.1
    · cases kind <;> rfl
    · intro option hoption
      cases option with
      | format => exact absurd rfl hoption.1
      | charset => exact absurd rfl hoption.2
      | package | methodsCsv | fieldsCsv | constructorsCsv => rfl
  · rw [(hsome ⟨sampleItems⟩ ⟨.methods, by decide⟩).1]
    decide +kernel

end Settings

end ClassReport
