import ClassReport.FileSystem.Access

/-!
# Where paths lead

`Reaches` tells a successful look-up step by step, links included; `follow_eq_ok_iff` says that it tells
nothing else. By induction on it: spellings with the same components lead to the same file
(`lookup_eq_of_components`), and writing a file moves nothing that a path leads to (`lookup_put`).
-/

namespace ClassReport

/-! ### Components -/

namespace Path

/-- The part that a component stands for, where it is not told by its place. -/
def Component.name? : Component → Option String
  | .root | .current => none
  | .parent => some ".."
  | .normal name => some name

theorem filterMap_ofPart? (parts : List String) :
    (parts.filterMap Component.ofPart?).filterMap Component.name? = parts.filter (· ≠ ".") := by
  induction parts with
  | nil => rfl
  | cons part parts ih =>
    by_cases hhere : part = "."
    · subst hhere
      simpa [Component.ofPart?] using ih
    · by_cases hup : part = ".."
      · subst hup
        simpa [Component.ofPart?, Component.name?] using ih
      · simpa [Component.ofPart?, Component.name?, hhere, hup] using ih

theorem root_notMem (parts : List String) : .root ∉ parts.filterMap Component.ofPart? := by
  intro h
  obtain ⟨part, -, hpart⟩ := List.mem_filterMap.mp h
  unfold Component.ofPart? at hpart
  split at hpart
  · cases hpart
  · split at hpart <;> cases hpart

/-- The components of a path tell its parts, dots apart. -/
theorem names_components (path : String) :
    (components path).filterMap Component.name? = (parts path).filter (· ≠ ".") := by
  unfold components
  split
  · rw [List.filterMap_cons]
    exact filterMap_ofPart? (parts path)
  · split
    · rename_i others hparts
      rw [hparts, List.filterMap_cons]
      simpa [Component.name?] using filterMap_ofPart? others
    · exact filterMap_ofPart? (parts path)

/-- The components of a path tell where it starts. -/
theorem isAbsolute_iff (path : String) :
    isAbsolute path = true ↔ (components path).head? = some .root := by
  unfold components
  split
  · rename_i h
    simp [h]
  · rename_i h
    constructor
    · intro habs
      exact absurd habs h
    · intro hhead
      split at hhead
      · cases hhead
      · exact absurd (List.mem_of_mem_head? hhead) (root_notMem _)

theorem parts_ne_nil {path : String} (hne : path ≠ "") (hrel : ¬ isAbsolute path = true) :
    parts path ≠ [] := by
  cases hchars : path.toList with
  | nil => exact absurd (String.toList_eq_nil_iff.mp hchars) hne
  | cons c rest =>
    have hc : (c == '/') = false := by
      cases hc : c == '/' with
      | false => rfl
      | true =>
        rw [beq_iff_eq] at hc
        rw [isAbsolute, hchars, hc] at hrel
        exact absurd rfl hrel
    rw [parts, hchars, Segment.split, hc]
    simp only [Bool.false_eq_true, if_false]
    split <;> simp

end Path

namespace FileSystem

/-! ### Successful look-ups -/

/-- A name that is looked for in the directory `place`, with `rest` still to be followed. -/
structure Passes (fs : FileSystem) (creating slash : Bool) (place : Location) (name : String)
    (rest : List String) : Prop where
  directory : fs.isDirectoryAt place = true
  ne_here : name ≠ "."
  ne_up : name ≠ ".."
  goes_on : creating = true → slash = true → rest ≠ []
  short : ¬ name.utf8ByteSize > maxNameLength

/-- Following names from a location, past at most so many links, comes to a place. -/
inductive Reaches (fs : FileSystem) (creating : Bool) :
    Nat → Bool → Location → List String → Place → Prop
  | done {links : Nat} {slash : Bool} {place : Location} {entry : Entry}
      (h : fs.get? place = some entry) (hslash : slash = true → entry = .directory) :
      Reaches fs creating links slash place [] (.existing place entry)
  | here {links : Nat} {slash : Bool} {place : Location} {rest : List String} {result : Place}
      (hdir : fs.isDirectoryAt place = true)
      (h : Reaches fs creating links slash place rest result) :
      Reaches fs creating links slash place ("." :: rest) result
  | up {links : Nat} {slash : Bool} {place : Location} {rest : List String} {result : Place}
      (hdir : fs.isDirectoryAt place = true)
      (h : Reaches fs creating links slash place.dropLast rest result) :
      Reaches fs creating links slash place (".." :: rest) result
  | vacant {links : Nat} {slash : Bool} {place : Location} {name : String}
      (hpass : Passes fs creating slash place name []) (h : fs.get? (place ++ [name]) = none) :
      Reaches fs creating links slash place [name] (.vacant (place ++ [name]))
  | enter {links : Nat} {slash : Bool} {place : Location} {name : String} {rest : List String}
      {entry : Entry} {result : Place} (hpass : Passes fs creating slash place name rest)
      (hentry : fs.get? (place ++ [name]) = some entry) (hlink : ∀ target, entry ≠ .link target)
      (h : Reaches fs creating links slash (place ++ [name]) rest result) :
      Reaches fs creating links slash place (name :: rest) result
  | link {links : Nat} {slash : Bool} {place : Location} {name : String} {rest : List String}
      {target : String} {result : Place} (hpass : Passes fs creating slash place name rest)
      (hentry : fs.get? (place ++ [name]) = some (.link target))
      (h : Reaches fs creating links (slash || (rest.isEmpty && closesWithSlash target))
        (if Path.isAbsolute target then [] else place) (Path.parts target ++ rest) result) :
      Reaches fs creating (links + 1) slash place (name :: rest) result

variable {fs : FileSystem} {creating slash : Bool} {links : Nat} {place : Location}
  {names : List String} {result : Place}

/-- What a look-up does with a name that is looked for. -/
theorem followNames_name {onward : Onward} {name : String} {rest : List String}
    (hpass : Passes fs creating slash place name rest) :
    fs.followNames creating onward slash place (name :: rest) =
      match fs.get? (place ++ [name]) with
      | none => if rest.isEmpty then .ok (.vacant (place ++ [name])) else .error .notFound
      | some (.link target) =>
        onward (if Path.isAbsolute target then [] else place) (Path.parts target ++ rest)
          (slash || (rest.isEmpty && closesWithSlash target))
      | some _ => fs.followNames creating onward slash (place ++ [name]) rest := by
  have hopen : ¬ (creating && slash && rest.isEmpty) = true := by
    intro h
    simp only [Bool.and_eq_true, List.isEmpty_iff] at h
    exact hpass.goes_on h.1.1 h.1.2 h.2
  rw [followNames, hpass.directory]
  exact (if_neg (by decide)).trans ((if_neg hpass.ne_here).trans ((if_neg hpass.ne_up).trans
    ((if_neg hopen).trans (if_neg hpass.short))))

theorem followNames_here {onward : Onward} {rest : List String}
    (hdir : fs.isDirectoryAt place = true) :
    fs.followNames creating onward slash place ("." :: rest) =
      fs.followNames creating onward slash place rest := by
  rw [followNames, hdir]
  rfl

theorem followNames_up {onward : Onward} {rest : List String}
    (hdir : fs.isDirectoryAt place = true) :
    fs.followNames creating onward slash place (".." :: rest) =
      fs.followNames creating onward slash place.dropLast rest := by
  rw [followNames, hdir]
  rfl

/-- What takes over at a link, when at most so many links may be followed. -/
def onwardOf (fs : FileSystem) (creating : Bool) : Nat → Onward
  | 0 => fun _ _ _ => .error .tooManyLinks
  | links + 1 => fs.follow creating links

theorem follow_eq (fs : FileSystem) (creating slash : Bool) (links : Nat) (place : Location)
    (names : List String) :
    fs.follow creating links place names slash =
      fs.followNames creating (onwardOf fs creating links) slash place names := by
  cases links <;> rfl

theorem follow_of_reaches (h : Reaches fs creating links slash place names result) :
    fs.follow creating links place names slash = .ok result := by
  rw [follow_eq]
  induction h with
  | @done links slash place entry h hslash =>
    rw [followNames, h]
    have hok : ¬ (slash && entry != .directory) = true := by
      intro hn
      simp only [Bool.and_eq_true, bne_iff_ne] at hn
      exact hn.2 (hslash hn.1)
    exact if_neg hok
  | here hdir _ ih => rw [followNames_here hdir, ih]
  | up hdir _ ih => rw [followNames_up hdir, ih]
  | vacant hpass h =>
    rw [followNames_name hpass, h]
    rfl
  | @enter links slash place name rest entry result hpass hentry hlink _ ih =>
    rw [followNames_name hpass, hentry]
    cases entry with
    | link target => exact absurd rfl (hlink target)
    | file content => exact ih
    | directory => exact ih
    | fullDevice => exact ih
  | link hpass hentry _ ih =>
    rw [followNames_name hpass, hentry]
    exact (follow_eq ..).trans ih

theorem reaches_of_followNames {onward : Onward}
    (honward : ∀ {target : String} {rest : List String} {slash : Bool} {place : Location}
      {name : String} {result : Place}, Passes fs creating slash place name rest →
      fs.get? (place ++ [name]) = some (.link target) →
      onward (if Path.isAbsolute target then [] else place) (Path.parts target ++ rest)
        (slash || (rest.isEmpty && closesWithSlash target)) = .ok result →
      Reaches fs creating links slash place (name :: rest) result)
    (h : fs.followNames creating onward slash place names = .ok result) :
    Reaches fs creating links slash place names result := by
  induction names generalizing place with
  | nil =>
    rw [followNames] at h
    split at h
    · cases h
    · rename_i entry hentry
      split at h
      · cases h
      · rename_i hslash
        cases h
        refine .done hentry fun hs => ?_
        simpa [hs] using hslash
  | cons name rest ih =>
    have hdir : fs.isDirectoryAt place = true := by
      cases hd : fs.isDirectoryAt place with
      | true => rfl
      | false => simp [followNames, hd] at h
    by_cases hhere : name = "."
    · subst hhere
      rw [followNames_here hdir] at h
      exact .here hdir (ih h)
    by_cases hup : name = ".."
    · subst hup
      rw [followNames_up hdir] at h
      exact .up hdir (ih h)
    have hgoes : creating = true → slash = true → rest ≠ [] := by
      intro hc hs hr
      simp [followNames, hdir, hhere, hup, hc, hs, hr] at h
    have hshort : ¬ name.utf8ByteSize > maxNameLength := by
      intro hn
      rw [followNames, hdir] at h
      simp only [Bool.not_true, Bool.false_eq_true, if_false, if_neg hhere, if_neg hup,
        if_pos hn] at h
      split at h <;> cases h
    have hpass : Passes fs creating slash place name rest := ⟨hdir, hhere, hup, hgoes, hshort⟩
    rw [followNames_name hpass] at h
    split at h
    · rename_i hnone
      split at h
      · rename_i hempty
        cases h
        have hnil := List.isEmpty_iff.mp hempty
        subst hnil
        exact .vacant hpass hnone
      · cases h
    · rename_i target hentry
      exact honward hpass hentry h
    · rename_i entry hlink hentry
      exact .enter hpass hentry hlink (ih h)

theorem follow_eq_ok_iff :
    fs.follow creating links place names slash = .ok result ↔
      Reaches fs creating links slash place names result := by
  constructor
  · intro h
    induction links generalizing place names slash result with
    | zero =>
      rw [follow_eq] at h
      exact reaches_of_followNames (fun _ _ hnone => by cases hnone) h
    | succ links ih =>
      rw [follow_eq] at h
      exact reaches_of_followNames (fun hpass hentry h => .link hpass hentry (ih h)) h
  · exact follow_of_reaches

theorem lookup_eq_ok_iff {path : String} :
    fs.lookup creating path = .ok result ↔
      (path.toList.contains '\x00' = false ∧ path ≠ "" ∧ ¬ path.utf8ByteSize > maxPathLength) ∧
        Reaches fs creating maxLinks (closesWithSlash path)
          (if Path.isAbsolute path then [] else fs.current) (Path.parts path) result := by
  rw [← follow_eq_ok_iff, lookup]
  cases hnul : path.toList.contains '\x00' with
  | true => simp
  | false =>
    by_cases hempty : path = ""
    · simp [hempty]
    · by_cases hlong : path.utf8ByteSize > maxPathLength
      · simp [hempty, hlong]
      · simp [hempty, hlong]

/-- What can be found when a file is made can be found when it is read. -/
theorem Reaches.reading (h : Reaches fs true links slash place names result) :
    Reaches fs false links slash place names result := by
  have hpasses {slash : Bool} {place : Location} {name : String} {rest : List String}
      (hp : Passes fs true slash place name rest) : Passes fs false slash place name rest :=
    ⟨hp.directory, hp.ne_here, hp.ne_up, nofun, hp.short⟩
  induction h with
  | done h hslash => exact .done h hslash
  | here hdir _ ih => exact .here hdir ih
  | up hdir _ ih => exact .up hdir ih
  | vacant hpass h => exact .vacant (hpasses hpass) h
  | enter hpass hentry hlink _ ih => exact .enter (hpasses hpass) hentry hlink ih
  | link hpass hentry _ ih => exact .link (hpasses hpass) hentry ih

theorem lookup_reading {path : String} (h : fs.lookup true path = .ok result) :
    fs.lookup false path = .ok result := by
  rw [lookup_eq_ok_iff] at h ⊢
  exact ⟨h.1, h.2.reading⟩

/-! ### Spellings of a path -/

/-- A directory that is there: nothing that can be written. -/
def Place.isDirectory : Place → Bool
  | .existing _ .directory => true
  | _ => false

theorem isDirectoryAt_iff : fs.isDirectoryAt place = true ↔ fs.get? place = some .directory := by
  rw [isDirectoryAt, beq_iff_eq]

/-- A closing slash leads to nothing but directories. -/
theorem Reaches.isDirectory_of_slash (h : Reaches fs true links slash place names result)
    (hslash : slash = true) : result.isDirectory = true := by
  induction h with
  | done h hs =>
    rw [hs hslash]
    rfl
  | here _ _ ih => exact ih hslash
  | up _ _ ih => exact ih hslash
  | vacant hpass h => exact absurd rfl (hpass.goes_on rfl hslash)
  | enter _ _ _ _ ih => exact ih hslash
  | link _ _ _ ih =>
    rw [hslash, Bool.true_or] at ih
    exact ih rfl

/-- Names that end in a dot lead to nothing but directories. -/
theorem Reaches.isDirectory_of_dot (h : Reaches fs creating links slash place names result)
    (hdot : names.getLast? = some ".") : result.isDirectory = true := by
  induction h with
  | done h hs => cases hdot
  | @here links slash place rest result hdir h ih =>
    cases rest with
    | nil =>
      cases h with
      | done hentry hs =>
        rw [isDirectoryAt_iff] at hdir
        rw [hdir] at hentry
        cases hentry
        rfl
    | cons name rest => exact ih (by rwa [List.getLast?_cons_cons] at hdot)
  | @up links slash place rest result hdir h ih =>
    cases rest with
    | nil => simp at hdot
    | cons name rest => exact ih (by rwa [List.getLast?_cons_cons] at hdot)
  | vacant hpass h =>
    rw [List.getLast?_singleton, Option.some.injEq] at hdot
    exact absurd hdot hpass.ne_here
  | @enter links slash place name rest entry result hpass hentry hlink h ih =>
    cases rest with
    | nil =>
      rw [List.getLast?_singleton, Option.some.injEq] at hdot
      exact absurd hdot hpass.ne_here
    | cons next rest => exact ih (by rwa [List.getLast?_cons_cons] at hdot)
  | @link links slash place name rest target result hpass hentry h ih =>
    cases rest with
    | nil =>
      rw [List.getLast?_singleton, Option.some.injEq] at hdot
      exact absurd hdot hpass.ne_here
    | cons next rest =>
      rw [List.getLast?_cons_cons] at hdot
      exact ih (by rw [List.getLast?_append, hdot]; rfl)

/-- The second list is the first one without some of its dots. -/
inductive Thinned : List String → List String → Prop
  | nil : Thinned [] []
  | keep {name : String} {names thin : List String} (h : Thinned names thin) :
      Thinned (name :: names) (name :: thin)
  | drop {names thin : List String} (h : Thinned names thin) : Thinned ("." :: names) thin

theorem Thinned.append_left {names thin : List String} (h : Thinned names thin)
    (front : List String) : Thinned (front ++ names) (front ++ thin) := by
  induction front with
  | nil => exact h
  | cons name front ih => exact .keep ih

theorem Thinned.of_ne {name : String} {names thin : List String} (h : Thinned (name :: names) thin)
    (hne : name ≠ ".") : ∃ rest, thin = name :: rest ∧ Thinned names rest := by
  cases h with
  | keep h => exact ⟨_, rfl, h⟩
  | drop h => exact absurd rfl hne

/-- Only dots at the end can leave nothing of a list. -/
theorem Thinned.eq_nil_iff {names thin : List String} (h : Thinned names thin)
    (hdot : names.getLast? ≠ some ".") : names = [] ↔ thin = [] := by
  induction h with
  | nil => exact Iff.rfl
  | keep h ih => simp
  | @drop names thin h ih =>
    cases names with
    | nil => exact absurd rfl hdot
    | cons name rest =>
      rw [List.getLast?_cons_cons] at hdot
      rw [← ih hdot]
      simp

theorem thinned_filter (names : List String) : Thinned names (names.filter (· ≠ ".")) := by
  induction names with
  | nil => exact .nil
  | cons name names ih =>
    by_cases h : name = "."
    · subst h
      simpa using Thinned.drop ih
    · simpa [h] using Thinned.keep ih

/-- Dots make no difference on the way to a file. -/
theorem Reaches.thin (h : Reaches fs creating links slash place names result)
    (hresult : result.isDirectory = false) {thin : List String} (ht : Thinned names thin) :
    Reaches fs creating links slash place thin result := by
  have hnot {links : Nat} {slash : Bool} {place : Location} {rest : List String} {result : Place}
      (h : Reaches fs creating links slash place rest result)
      (hresult : result.isDirectory = false) : rest.getLast? ≠ some "." := by
    intro hdot
    have hd := h.isDirectory_of_dot hdot
    rw [hresult] at hd
    cases hd
  induction h generalizing thin with
  | done h hs =>
    cases ht
    exact .done h hs
  | here hdir h ih =>
    cases ht with
    | keep ht => exact .here hdir (ih hresult ht)
    | drop ht => exact ih hresult ht
  | up hdir h ih =>
    obtain ⟨rest, rfl, hrest⟩ := ht.of_ne (by decide)
    exact .up hdir (ih hresult hrest)
  | vacant hpass h =>
    obtain ⟨rest, rfl, hrest⟩ := ht.of_ne hpass.ne_here
    cases hrest
    exact .vacant hpass h
  | enter hpass hentry hlink h ih =>
    obtain ⟨thin, rfl, hrest⟩ := ht.of_ne hpass.ne_here
    have hiff := hrest.eq_nil_iff (hnot h hresult)
    exact .enter { hpass with goes_on := fun hc hs hr => hpass.goes_on hc hs (hiff.mpr hr) }
      hentry hlink (ih hresult hrest)
  | @link links slash place name rest target result hpass hentry h ih =>
    obtain ⟨thin, rfl, hrest⟩ := ht.of_ne hpass.ne_here
    have hdot : rest.getLast? ≠ some "." := by
      intro hdot
      refine hnot h hresult ?_
      rw [List.getLast?_append, hdot]
      rfl
    have hiff := hrest.eq_nil_iff hdot
    have hempty : rest.isEmpty = thin.isEmpty := by
      rw [Bool.eq_iff_iff, List.isEmpty_iff, List.isEmpty_iff]
      exact hiff
    refine .link { hpass with goes_on := fun hc hs hr => hpass.goes_on hc hs (hiff.mpr hr) }
      hentry ?_
    rw [← hempty]
    exact ih hresult (hrest.append_left _)

/-- Two spellings of one path that both lead to a file lead to the same one. -/
theorem lookup_eq_of_components {path other : String} {first second : Place}
    (hcomponents : Path.components path = Path.components other)
    (hp : fs.lookup true path = .ok first) (hfirst : first.isDirectory = false)
    (ho : fs.lookup true other = .ok second) (hsecond : second.isDirectory = false) :
    first = second := by
  rw [lookup_eq_ok_iff] at hp ho
  have hslash {path : String} {place : Place} {start : Location}
      (h : Reaches fs true maxLinks (closesWithSlash path) start (Path.parts path) place)
      (hplace : place.isDirectory = false) : closesWithSlash path = false := by
    cases hs : closesWithSlash path with
    | false => rfl
    | true =>
      have hd := h.isDirectory_of_slash hs
      rw [hplace] at hd
      cases hd
  have hnames : (Path.parts path).filter (· ≠ ".") = (Path.parts other).filter (· ≠ ".") := by
    rw [← Path.names_components, ← Path.names_components, hcomponents]
  have habsolute : Path.isAbsolute path = Path.isAbsolute other := by
    rw [Bool.eq_iff_iff, Path.isAbsolute_iff, Path.isAbsolute_iff, hcomponents]
  have hthin := hp.2.thin hfirst (thinned_filter (Path.parts path))
  have hthin' := ho.2.thin hsecond (thinned_filter (Path.parts other))
  rw [hslash hp.2 hfirst, ← follow_eq_ok_iff, hnames, habsolute] at hthin
  rw [hslash ho.2 hsecond, ← follow_eq_ok_iff, hthin, Except.ok.injEq] at hthin'
  exact hthin'

/-! ### Writing a file -/

/-- A location that a file can be put at: it is free or holds a file. -/
def Holds (fs : FileSystem) (location : Location) : Prop :=
  fs.get? location = none ∨ ∃ content, fs.get? location = some (.file content)

/-- Where a path leads once a file with that content stands at `location`. -/
def Place.after (location : Location) (content : Bytes) : Place → Place
  | .vacant at_ => if at_ = location then .existing location (.file content) else .vacant at_
  | .existing at_ entry => .existing at_ (if at_ = location then .file content else entry)

theorem file_ne_link (content : Bytes) (target : String) : Entry.file content ≠ .link target := by
  intro h
  cases h

section Put
variable {location : Location} {content : Bytes}

theorem Holds.ne_nil (h : Holds fs location) : location ≠ [] := by
  rintro rfl
  rcases h with h | ⟨content, h⟩
  · simp [get?] at h
  · simp [get?] at h

theorem Holds.get?_put (h : Holds fs location) (place : Location) :
    (fs.put location (.file content)).get? place =
      if place = location then some (.file content) else fs.get? place :=
  FileSystem.get?_put fs h.ne_nil (.file content) place

theorem Holds.isDirectoryAt_put (h : Holds fs location) (place : Location) :
    (fs.put location (.file content)).isDirectoryAt place = fs.isDirectoryAt place := by
  rw [isDirectoryAt, isDirectoryAt, h.get?_put]
  split
  · rename_i hplace
    rw [hplace]
    rcases h with h | ⟨old, h⟩
    · rw [h]
      rfl
    · rw [h]
      rfl
  · rfl

theorem Holds.passes_put (h : Holds fs location) {place : Location} {name : String}
    {rest : List String} :
    Passes (fs.put location (.file content)) creating slash place name rest ↔
      Passes fs creating slash place name rest := by
  constructor
  · intro hp
    exact ⟨by rw [← h.isDirectoryAt_put place]; exact hp.directory, hp.ne_here, hp.ne_up, hp.goes_on,
      hp.short⟩
  · intro hp
    exact ⟨by rw [h.isDirectoryAt_put place]; exact hp.directory, hp.ne_here, hp.ne_up, hp.goes_on,
      hp.short⟩

/-- Putting a file where one may stand moves nothing that names lead to. -/
theorem Reaches.put (hplace : Holds fs location)
    (h : Reaches fs true links slash place names result) :
    Reaches (fs.put location (.file content)) true links slash place names
      (result.after location content) := by
  induction h with
  | @done links slash place entry h hs =>
    refine .done ?_ ?_
    · rw [hplace.get?_put]
      split
      · rfl
      · exact h
    · intro hslash
      have hdir := hs hslash
      have hne : place ≠ location := by
        rintro rfl
        rw [hdir] at h
        rcases hplace with hfree | ⟨old, hold⟩
        · rw [hfree] at h
          cases h
        · rw [hold] at h
          cases h
      rw [if_neg hne]
      exact hdir
  | here hdir _ ih => exact .here (by rw [hplace.isDirectoryAt_put]; exact hdir) ih
  | up hdir _ ih => exact .up (by rw [hplace.isDirectoryAt_put]; exact hdir) ih
  | @vacant links slash place name hpass h =>
    have hpass' : Passes (fs.put location (.file content)) true slash place name [] :=
      hplace.passes_put.mpr hpass
    by_cases hloc : place ++ [name] = location
    · subst hloc
      have hget : (fs.put (place ++ [name]) (.file content)).get? (place ++ [name]) =
          some (.file content) := by
        rw [hplace.get?_put, if_pos rfl]
      have hslash : slash = true → Entry.file content = .directory := fun hs =>
        absurd rfl (hpass.goes_on rfl hs)
      rw [Place.after, if_pos rfl]
      exact .enter hpass' hget (file_ne_link content) (.done hget hslash)
    · rw [Place.after, if_neg hloc]
      exact .vacant hpass' (by rw [hplace.get?_put, if_neg hloc]; exact h)
  | @enter links slash place name rest entry result hpass hentry hlink _ ih =>
    have hpass' : Passes (fs.put location (.file content)) true slash place name rest :=
      hplace.passes_put.mpr hpass
    by_cases hloc : place ++ [name] = location
    · exact .enter hpass' (by rw [hplace.get?_put, if_pos hloc]) (file_ne_link content) ih
    · exact .enter hpass' (by rw [hplace.get?_put, if_neg hloc]; exact hentry) hlink ih
  | @link links slash place name rest target result hpass hentry _ ih =>
    have hloc : place ++ [name] ≠ location := by
      intro hloc
      rw [hloc] at hentry
      rcases hplace with hfree | ⟨old, hold⟩
      · rw [hfree] at hentry
        cases hentry
      · rw [hold] at hentry
        cases hentry
    exact .link (hplace.passes_put.mpr hpass) (by rw [hplace.get?_put, if_neg hloc]; exact hentry) ih

theorem lookup_put (hplace : Holds fs location) {path : String}
    (h : fs.lookup true path = .ok result) :
    (fs.put location (.file content)).lookup true path = .ok (result.after location content) := by
  rw [lookup_eq_ok_iff] at h ⊢
  exact ⟨h.1, h.2.put hplace⟩

/-! ### Trees -/

/-- Whatever is there stands in a directory. -/
def IsTree (fs : FileSystem) : Prop := ∀ item ∈ fs.entries, fs.isDirectoryAt item.1.dropLast = true

instance (fs : FileSystem) : Decidable (IsTree fs) :=
  inferInstanceAs (Decidable (∀ item ∈ fs.entries, fs.isDirectoryAt item.1.dropLast = true))

theorem mem_of_entryAt {place : Location} {entry : Entry} {entries : List (Location × Entry)}
    (h : entryAt place entries = some entry) : (place, entry) ∈ entries := by
  induction entries with
  | nil => cases h
  | cons item entries ih =>
    obtain ⟨key, old⟩ := item
    rw [entryAt] at h
    split at h
    · rename_i hkey
      cases h
      rw [hkey]
      exact List.mem_cons_self ..
    · exact List.mem_cons_of_mem _ (ih h)

theorem mem_assign {place : Location} {entry : Entry} {entries : List (Location × Entry)}
    {item : Location × Entry} (h : item ∈ assign place entry entries) :
    item = (place, entry) ∨ item ∈ entries := by
  induction entries with
  | nil => exact Or.inl (List.mem_singleton.mp h)
  | cons first entries ih =>
    obtain ⟨key, old⟩ := first
    rw [assign] at h
    split at h
    · rcases List.mem_cons.mp h with h | h
      · exact Or.inl h
      · exact Or.inr (List.mem_cons_of_mem _ h)
    · rcases List.mem_cons.mp h with h | h
      · exact Or.inr (List.mem_cons.mpr (Or.inl h))
      · exact (ih h).imp id (List.mem_cons_of_mem _)

theorem IsTree.isDirectoryAt_dropLast (htree : IsTree fs) {place : Location} {entry : Entry}
    (h : fs.get? place = some entry) : fs.isDirectoryAt place.dropLast = true := by
  rw [get?] at h
  split at h
  · rename_i hroot
    rw [hroot]
    exact beq_self_eq_true _
  · exact htree _ (mem_of_entryAt h)

theorem IsTree.put (htree : IsTree fs) (hplace : Holds fs location)
    (hdir : fs.isDirectoryAt location.dropLast = true) :
    IsTree (fs.put location (.file content)) := by
  intro item hitem
  rw [hplace.isDirectoryAt_put]
  rcases mem_assign hitem with rfl | hitem
  · exact hdir
  · exact htree item hitem

/-- In a tree, what names lead to after a file was put somewhere they led to before. -/
theorem Reaches.of_put (htree : IsTree fs) (hplace : Holds fs location)
    (h : Reaches (fs.put location (.file content)) true links slash place names result)
    (hstart : names = [] → fs.get? place ≠ none) :
    ∃ before, Reaches fs true links slash place names before ∧
      result = before.after location content := by
  induction h with
  | @done links slash place entry h hs =>
    rw [hplace.get?_put] at h
    by_cases hloc : place = location
    · rw [if_pos hloc] at h
      cases h
      rcases hplace with hfree | ⟨old, hold⟩
      · rw [← hloc] at hfree
        exact absurd hfree (hstart rfl)
      · have hslash : slash = true → Entry.file old = .directory := fun htrue =>
          absurd (hs htrue) (by simp)
        rw [← hloc] at hold
        exact ⟨.existing place (.file old), .done hold hslash, by rw [Place.after, if_pos hloc]⟩
    · rw [if_neg hloc] at h
      exact ⟨.existing place entry, .done h hs, by rw [Place.after, if_neg hloc]⟩
  | here hdir _ ih =>
    rw [hplace.isDirectoryAt_put] at hdir
    obtain ⟨before, hr, rfl⟩ := ih fun _ hnone => by
      rw [isDirectoryAt_iff, hnone] at hdir
      cases hdir
    exact ⟨before, .here hdir hr, rfl⟩
  | up hdir _ ih =>
    rw [hplace.isDirectoryAt_put] at hdir
    obtain ⟨before, hr, rfl⟩ := ih fun _ hnone => by
      have hparent := htree.isDirectoryAt_dropLast (isDirectoryAt_iff.mp hdir)
      rw [isDirectoryAt_iff, hnone] at hparent
      cases hparent
    exact ⟨before, .up hdir hr, rfl⟩
  | @vacant links slash place name hpass h =>
    rw [hplace.get?_put] at h
    split at h
    · cases h
    · rename_i hloc
      exact ⟨.vacant (place ++ [name]), .vacant (hplace.passes_put.mp hpass) h,
        by rw [Place.after, if_neg hloc]⟩
  | @enter links slash place name rest entry result hpass hentry hlink h ih =>
    have hpass' := hplace.passes_put.mp hpass
    rw [hplace.get?_put] at hentry
    by_cases hloc : place ++ [name] = location
    · rcases hplace with hfree | ⟨old, hold⟩
      · -- The file is new, and nothing can be looked for in it.
        have hnotdir : ¬ (fs.put location (.file content)).isDirectoryAt (place ++ [name]) = true := by
          rw [(show Holds fs location from Or.inl hfree).isDirectoryAt_put, isDirectoryAt_iff, hloc,
            hfree]
          exact nofun
        rw [← hloc] at hfree
        cases h with
        | done hget hs =>
          refine ⟨.vacant (place ++ [name]), .vacant hpass' hfree, ?_⟩
          rw [FileSystem.get?_put fs (by rw [← hloc]; simp), if_pos hloc] at hget
          cases hget
          rw [Place.after, if_pos hloc, hloc]
        | here hdir _ => exact absurd hdir hnotdir
        | up hdir _ => exact absurd hdir hnotdir
        | vacant hp _ => exact absurd hp.directory hnotdir
        | enter hp _ _ _ => exact absurd hp.directory hnotdir
        | link hp _ _ => exact absurd hp.directory hnotdir
      · obtain ⟨before, hr, rfl⟩ := ih fun _ hnone => by
          rw [hloc, hold] at hnone
          cases hnone
        rw [← hloc] at hold
        exact ⟨before, .enter hpass' hold (file_ne_link old) hr, rfl⟩
    · rw [if_neg hloc] at hentry
      obtain ⟨before, hr, rfl⟩ := ih fun _ hnone => by
        rw [hentry] at hnone
        cases hnone
      exact ⟨before, .enter hpass' hentry hlink hr, rfl⟩
  | @link links slash place name rest target result hpass hentry _ ih =>
    have hpass' := hplace.passes_put.mp hpass
    rw [hplace.get?_put] at hentry
    split at hentry
    · cases hentry
    · obtain ⟨before, hr, rfl⟩ := ih fun _ hnone => by
        split at hnone
        · simp [get?] at hnone
        · have hdir := hpass'.directory
          rw [isDirectoryAt_iff, hnone] at hdir
          cases hdir
      exact ⟨before, .link hpass' hentry hr, rfl⟩

theorem lookup_of_put (htree : IsTree fs) (hplace : Holds fs location) {path : String}
    (h : (fs.put location (.file content)).lookup true path = .ok result) :
    ∃ before, fs.lookup true path = .ok before ∧ result = before.after location content := by
  rw [lookup_eq_ok_iff] at h
  have hstart : Path.parts path = [] →
      fs.get? (if Path.isAbsolute path then [] else fs.current) ≠ none := by
    intro hnil
    by_cases habs : Path.isAbsolute path = true
    · simp [habs, get?]
    · exact absurd hnil (Path.parts_ne_nil h.1.2.1 habs)
  obtain ⟨before, hr, hresult⟩ := h.2.of_put htree hplace hstart
  exact ⟨before, lookup_eq_ok_iff.mpr ⟨h.1, hr⟩, hresult⟩

end Put

end FileSystem

end ClassReport
