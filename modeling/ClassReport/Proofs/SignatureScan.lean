import ClassReport.Proofs.GenericMethods
import ClassReport.Proofs.TextCursor

/-!
# Scanning signatures byte by byte

The same types can be read by a cursor on the bytes of a text: bytes are taken one at a time, names are cut
out between two positions, and every loop and the recursion are given a number of rounds that they must not
use up. This scan gives what reading the characters gives and never comes to a fault, whatever the text is,
if there are more rounds than the text has bytes (`scan_total`); for every round takes a byte at least
(`moves_type`).
-/

namespace ClassReport.SignatureScan
open TextCursor FailingState
open RecordBuffer (byteOf)
open Signature (type? classType? typeArguments? argumentList? skipBounds? skipTypeParameters parameters
  upTo since endsSegment endsParameterName startsBound)

variable (input : Bytes) (limit : Nat)

/-- Runs `step` on value after value up to the byte that closes, and takes that too. -/
def repeatUntil {α : Type} (close : Char) (step : α → Scan α) : Nat → α → Scan α
  | 0, _ => throw (.fault .endless)
  | rounds + 1, value => do
    match ← peek input with
    | none => throw .malformed
    | some b =>
      if b = byteOf close then do
        expect input close
        pure value
      else do
        let next ← step value
        repeatUntil close step rounds next

section Parts

variable (type : Scan String)

def argument : Scan String := do
  match ← peek input with
  | none => throw .malformed
  | some b =>
    if b = byteOf '*' then do
      move input
      pure "?"
    else if b = byteOf '+' then do
      move input
      let bounding ← type
      pure ("? extends " ++ bounding)
    else if b = byteOf '-' then do
      move input
      let bounding ← type
      pure ("? super " ++ bounding)
    else type

def typeArguments : Scan String := do
  expect input '<'
  let list ← repeatUntil input '>' (fun list => do
    let next ← argument input type
    pure (list ++ [next])) limit []
  pure ("<" ++ ", ".intercalate list ++ ">")

/-- A class of a class type, with its type arguments. -/
def segment : Scan String := do
  let name ← takeUntil input [';', '<', '.'] limit
  if name = "" then throw .malformed
  else do
    let b ← peek input
    if b = some (byteOf '<') then do
      let arguments ← typeArguments input limit type
      pure (binaryName name ++ arguments)
    else pure (binaryName name)

def classType : Nat → String → Scan String
  | 0, _ => throw (.fault .endless)
  | rounds + 1, outer => do
    let inner ← segment input limit type
    let b ← bump input
    if b = byteOf ';' then pure (outer ++ inner)
    else if b = byteOf '.' then classType rounds (outer ++ inner ++ "$")
    else throw .malformed

def bounds : Nat → Scan Unit
  | 0 => throw (.fault .endless)
  | rounds + 1 => do
    let b ← peek input
    if b = some (byteOf ':') then do
      move input
      let first ← peek input
      if first = some (byteOf 'L') ∨ first = some (byteOf 'T') ∨ first = some (byteOf '[') then do
        let _ ← type
        bounds rounds
      else bounds rounds
    else pure ()

def typeParameter : Scan Unit := do
  let name ← takeUntil input [':', '>'] limit
  let b ← peek input
  if name = "" ∨ b ≠ some (byteOf ':') then throw .malformed
  else bounds input type limit

/-- What stands behind the type parameters of a method. -/
def callTypes : Scan MethodTypes := do
  expect input '('
  let parameters ← repeatUntil input ')' (fun list => do
    let next ← type
    pure (list ++ [next])) limit []
  let result ← type
  pure ⟨parameters, result⟩

end Parts

/-- A type, with so many types inside one another at most. -/
def type : Nat → Scan String
  | 0 => throw (.fault .endless)
  | depth + 1 => do
    let tag ← bump input
    match Primitive.all.find? fun p => byteOf p.letter == tag with
    | some p => pure p.keyword
    | none =>
      if tag = byteOf '[' then do
        let element ← type depth
        pure (element ++ "[]")
      else if tag = byteOf 'L' then classType input limit (type depth) limit ""
      else if tag = byteOf 'T' then do
        let name ← takeUntil input [';'] limit
        expect input ';'
        if name = "" then throw .malformed else pure name
      else throw .malformed

def methodTypes : Scan MethodTypes := do
  let b ← peek input
  if b = some (byteOf '<') then do
    expect input '<'
    repeatUntil input '>' (fun _ => typeParameter input limit (type input limit limit)) limit ()
    callTypes input limit (type input limit limit)
  else callTypes input limit (type input limit limit)

/-! ### Every round goes on -/

section Moves

variable {input limit} {α : Type} {scan : Scan String}

theorem moves_repeatUntil {close : Char} {step : α → Scan α} (hstep : ∀ value, Moves input 0 (step value))
    (rounds : Nat) (value : α) : Moves input 1 (repeatUntil input close step rounds value) := by
  induction rounds generalizing value with
  | zero => exact moves_throw 1 _
  | succ rounds ih =>
    refine moves_peek.before fun b => ?_
    cases b with
    | none => exact moves_throw 1 _
    | some b =>
      show Moves input 1 (if b = byteOf close then _ else _)
      split
      · exact (moves_expect close).bind fun _ => moves_pure value
      · exact (hstep value).before fun next => ih next

variable (hscan : Moves input 1 scan)
include hscan

theorem moves_argument : Moves input 1 (argument input scan) := by
  refine moves_peek.before fun b => ?_
  cases b with
  | none => exact moves_throw 1 _
  | some b =>
    show Moves input 1 (if b = byteOf '*' then _ else if b = byteOf '+' then _ else
      if b = byteOf '-' then _ else _)
    split
    · exact moves_move.bind fun _ => moves_pure _
    · split
      · exact moves_move.bind fun _ => hscan.weaken.bind fun _ => moves_pure _
      · split
        · exact moves_move.bind fun _ => hscan.weaken.bind fun _ => moves_pure _
        · exact hscan

theorem moves_typeArguments : Moves input 1 (typeArguments input limit scan) :=
  (moves_expect '<').bind fun _ =>
    ((moves_repeatUntil (fun _ => (moves_argument hscan).weaken.bind fun _ => moves_pure _) limit
      []).weaken).bind fun _ => moves_pure _

/-- The name has a byte at least. -/
theorem moves_segment : Moves input 1 (segment input limit scan) where
  moves hpos h := by
    obtain ⟨name, middle, hname, h⟩ := bind_eq_ok_iff.mp h
    have hle := ((moves_takeUntil _ _).moves hpos hname).2
    split at h
    · cases h
    · rename_i hne
      have hlt := lt_of_takeUntil hpos hname hne
      have hrest : Moves input 0 (do
          let b ← peek input
          if b = some (byteOf '<') then do
            let arguments ← typeArguments input limit scan
            pure (binaryName name ++ arguments)
          else pure (binaryName name)) := by
        refine moves_peek.before fun b => ?_
        split
        · exact (moves_typeArguments hscan).weaken.bind fun _ => moves_pure _
        · exact moves_pure _
      have hnext := hrest.moves hle h
      omega

theorem moves_classType (rounds : Nat) (outer : String) :
    Moves input 0 (classType input limit scan rounds outer) := by
  induction rounds generalizing outer with
  | zero => exact moves_throw 0 _
  | succ rounds ih =>
    refine (moves_segment hscan).weaken.bind fun inner => moves_bump.weaken.bind fun b => ?_
    split
    · exact moves_pure _
    · split
      · exact ih _
      · exact moves_throw 0 _

theorem moves_bounds (rounds : Nat) : Moves input 0 (bounds input scan rounds) := by
  induction rounds with
  | zero => exact moves_throw 0 _
  | succ rounds ih =>
    refine moves_peek.bind fun b => ?_
    split
    · refine moves_move.weaken.bind fun _ => moves_peek.bind fun first => ?_
      split
      · exact hscan.weaken.bind fun _ => ih
      · exact ih
    · exact moves_pure ()

theorem moves_typeParameter : Moves input 1 (typeParameter input limit scan) where
  moves hpos h := by
    obtain ⟨name, middle, hname, h⟩ := bind_eq_ok_iff.mp h
    have hle := ((moves_takeUntil _ _).moves hpos hname).2
    obtain ⟨b, _, hpeek, h⟩ := bind_eq_ok_iff.mp h
    cases hpeek
    split at h
    · cases h
    · rename_i hne
      have hlt := lt_of_takeUntil hpos hname fun hempty => hne (.inl hempty)
      have hnext := (moves_bounds hscan limit).moves hle h
      omega

end Moves

theorem moves_type (depth : Nat) : Moves input 1 (type input limit depth) := by
  induction depth with
  | zero => exact moves_throw 1 _
  | succ depth ih =>
    refine moves_bump.bind fun tag => ?_
    split
    · exact moves_pure _
    · split
      · exact ih.weaken.bind fun _ => moves_pure _
      · split
        · exact moves_classType ih limit ""
        · split
          · refine (moves_takeUntil _ limit).bind fun name => (moves_expect ';').weaken.bind fun _ => ?_
            split
            · exact moves_throw 0 _
            · exact moves_pure _
          · exact moves_throw 0 _

/-! ### Scanning gives what reading gives -/

section Parts

variable {input limit} {start : Nat} {scan : Scan String} {pos : Nat} {cs : List Char}

/-- From the start on each step gives what `read` gives, and `whole` is what the steps come to up to the
character that closes. -/
structure Repeats {α : Type} (input : Bytes) (start : Nat) (close : Char) (step : α → Scan α)
    (read whole : α → List Char → Option (α × List Char)) : Prop where
  moves : ∀ value, Moves input 1 (step value)
  step : ∀ {value : α} {pos : Nat} {cs : List Char}, start ≤ pos → Ahead input pos cs →
    Matches input (step value pos) (read value cs)
  ends : ∀ value, whole value [] = none
  closes : ∀ value rest, whole value (close :: rest) = some (value, rest)
  goesOn : ∀ {value : α} {cs : List Char}, cs.head? ≠ some close →
    whole value cs = (read value cs).bind fun got => whole got.1 got.2

theorem Repeats.matches {α : Type} {close : Char} {step : α → Scan α}
    {read whole : α → List Char → Option (α × List Char)} (hloop : Repeats input start close step read whole)
    (hascii : close.toNat < 128) {rounds : Nat} (value : α) (hpos : start ≤ pos) (h : Ahead input pos cs)
    (hrounds : input.length < pos + rounds) :
    Matches input (repeatUntil input close step rounds value pos) (whole value cs) := by
  induction rounds generalizing value pos cs with
  | zero => exact absurd h.le_length (Nat.not_le_of_lt hrounds)
  | succ rounds ih =>
    cases cs with
    | nil =>
      rw [repeatUntil, bind_of_ok (peek_nil h), hloop.ends]
      exact .malformed
    | cons c rest =>
      rw [repeatUntil, bind_of_ok (peek_cons h)]
      simp only [lead_eq_iff hascii]
      by_cases hc : c = close
      · subst hc
        obtain ⟨next, hexpect, hnext⟩ := (expect_cons_self hascii h).eq_ok
        rw [if_pos rfl, bind_of_ok hexpect, hloop.closes]
        exact .ok hnext
      · have hhead : (c :: rest).head? ≠ some close := fun heq => hc (Option.some.inj heq)
        rw [if_neg hc, hloop.goesOn hhead]
        refine (hloop.step hpos h).bind fun next place left hgot _ hnext => ?_
        have hgone := ((hloop.moves value).moves h.le_length hgot).1
        exact ih next (by omega) hnext (by omega)

/-- From the start on, the scan gives what reading a type gives. -/
def ReadsTypes (input : Bytes) (start : Nat) (scan : Scan String) : Prop :=
  ∀ {pos : Nat} {cs : List Char}, start ≤ pos → Ahead input pos cs →
    Matches input (scan pos) ((type? cs).map fun got => (got.1.render, got.2))

theorem ReadsTypes.map {β : Type} (htype : ReadsTypes input start scan) (f : String → β)
    (hpos : start ≤ pos) (h : Ahead input pos cs) :
    Matches input ((scan >>= fun value => pure (f value)) pos)
      ((type? cs).map fun got => (f got.1.render, got.2)) := by
  have hmap := (htype hpos h).map f
  rwa [Option.map_map] at hmap

variable (htype : ReadsTypes input start scan) (hscan : Moves input 1 scan) (hlimit : input.length < limit)

/-- A type argument as Java source writes it. -/
def readArgument : List Char → Option (String × List Char)
  | '*' :: rest => some ("?", rest)
  | cs => (type? (Signature.bound cs).2).map fun got =>
      ((Signature.bound cs).1.words ++ got.1.render, got.2)

theorem readArgument_of_ne (h : cs.head? ≠ some '*') :
    readArgument cs = (type? (Signature.bound cs).2).map fun got =>
      ((Signature.bound cs).1.words ++ got.1.render, got.2) := by
  unfold readArgument
  split
  · exact absurd rfl h
  · rfl

theorem readArgument_nil : readArgument [] = none := by
  have hbound : Signature.bound [] = (.exact, []) := rfl
  rw [readArgument_of_ne (by simp), hbound, Signature.type?_nil]
  rfl

include htype in
theorem matches_argument (hpos : start ≤ pos) (h : Ahead input pos cs) :
    Matches input (argument input scan pos) (readArgument cs) := by
  cases cs with
  | nil =>
    rw [argument, bind_of_ok (peek_nil h), readArgument_nil]
    exact .malformed
  | cons c rest =>
    rw [argument, bind_of_ok (peek_cons h)]
    simp only [lead_eq_iff (a := '*') (by decide), lead_eq_iff (a := '+') (by decide),
      lead_eq_iff (a := '-') (by decide)]
    by_cases hany : c = '*'
    · subst hany
      rw [if_pos rfl, bind_of_ok (move_cons h)]
      exact .ok (h.succ (by decide))
    have hhead : (c :: rest).head? ≠ some '*' := fun heq => hany (Option.some.inj heq)
    rw [if_neg hany, readArgument_of_ne hhead]
    by_cases hextends : c = '+'
    · subst hextends
      rw [if_pos rfl, bind_of_ok (move_cons h)]
      exact htype.map ("? extends " ++ ·) (by omega) (h.succ (by decide))
    by_cases hsuper : c = '-'
    · subst hsuper
      rw [if_neg hextends, if_pos rfl, bind_of_ok (move_cons h)]
      exact htype.map ("? super " ++ ·) (by omega) (h.succ (by decide))
    · have hbound : Signature.bound (c :: rest) = (.exact, c :: rest) := by
        unfold Signature.bound
        split <;> simp_all
      rw [if_neg hextends, if_neg hsuper, hbound]
      simp only [Bound.words, String.empty_append]
      exact htype hpos h

/-- A list of type arguments is read one by one. -/
theorem argumentList?_step (list : List String) (h : cs.head? ≠ some '>') :
    ((argumentList? cs).map fun got => (list ++ got.1.renderEach, got.2)) =
      ((readArgument cs).map fun got => (list ++ [got.1], got.2)).bind fun got =>
        (argumentList? got.2).map fun others => (got.1 ++ others.1.renderEach, others.2) := by
  by_cases hany : cs.head? = some '*'
  · obtain ⟨rest, rfl⟩ := List.head?_eq_some_iff.mp hany
    rw [Signature.argumentList?_wildcard, readArgument]
    simp [ArgumentList.renderEach, Function.comp_def]
  · rw [Signature.argumentList?_bounded h hany, readArgument_of_ne hany]
    cases type? (Signature.bound cs).2 with
    | none => rfl
    | some got => simp [ArgumentList.renderEach, Function.comp_def]

include htype hscan in
theorem repeats_argument :
    Repeats input start '>' (fun list => argument input scan >>= fun next => pure (list ++ [next]))
      (fun list cs => (readArgument cs).map fun got => (list ++ [got.1], got.2))
      (fun list cs => (argumentList? cs).map fun got => (list ++ got.1.renderEach, got.2)) where
  moves list := (moves_argument hscan).bind fun _ => moves_pure _
  step hpos h := (matches_argument htype hpos h).map _
  ends list := by
    have hnone := argumentList?_step list (show [].head? ≠ some '>' by simp)
    rw [hnone, readArgument_nil]
    rfl
  closes list rest := by
    rw [Signature.argumentList?_nil]
    simp [ArgumentList.renderEach]
  goesOn h := argumentList?_step _ h

/-- A class of a class type as Java source writes it. -/
def readSegment (cs : List Char) : Option (String × List Char) :=
  if upTo endsSegment cs = [] then none
  else (typeArguments? (since endsSegment cs)).map fun got =>
    (binaryName (String.ofList (upTo endsSegment cs)) ++ got.1.render, got.2)

theorem ofList_eq_empty_iff {name : List Char} : String.ofList name = "" ↔ name = [] := by
  rw [← String.toList_inj, String.toList_ofList]
  rfl

theorem endsSegment_iff_mem (c : Char) : endsSegment c = true ↔ c ∈ [';', '<', '.'] := by
  rw [Signature.endsSegment_iff]
  simp

include htype hscan hlimit

theorem matches_typeArguments (hpos : start ≤ pos) (h : Ahead input pos ('<' :: cs)) :
    Matches input (typeArguments input limit scan pos)
      ((argumentList? cs).map fun got => ("<" ++ ", ".intercalate got.1.renderEach ++ ">", got.2)) := by
  obtain ⟨next, hexpect, hnext⟩ := (expect_cons_self (by decide) h).eq_ok
  have hgone := ((moves_expect '<').moves h.le_length hexpect).1
  have hlist := (repeats_argument htype hscan).matches (by decide) [] (by omega) hnext
    (Nat.lt_add_left next hlimit)
  rw [typeArguments, bind_of_ok hexpect]
  have hmap := hlist.map fun list => "<" ++ ", ".intercalate list ++ ">"
  rwa [Option.map_map] at hmap

theorem matches_segment (hpos : start ≤ pos) (h : Ahead input pos cs) :
    Matches input (segment input limit scan pos) (readSegment cs) := by
  obtain ⟨next, hname, hnext⟩ :=
    (matches_takeUntil (by simp) endsSegment_iff_mem h hlimit).eq_ok
  have hgone := ((moves_takeUntil _ _).moves h.le_length hname).1
  rw [segment, bind_of_ok hname, readSegment]
  by_cases hempty : upTo endsSegment cs = []
  · rw [if_pos (ofList_eq_empty_iff.mpr hempty), if_pos hempty]
    exact .malformed
  rw [if_neg (mt ofList_eq_empty_iff.mp hempty), if_neg hempty, bind_of_ok (peek_ahead hnext)]
  simp only [map_lead_eq_iff (a := '<') (by decide)]
  by_cases hopen : (since endsSegment cs).head? = some '<'
  · rw [if_pos hopen]
    obtain ⟨inner, hinner⟩ := List.head?_eq_some_iff.mp hopen
    rw [hinner] at hnext ⊢
    have harguments := (matches_typeArguments htype hscan hlimit (by omega) hnext).map
      fun arguments => binaryName (String.ofList (upTo endsSegment cs)) ++ arguments
    rw [Signature.typeArguments?_some, Option.map_map]
    rwa [Option.map_map] at harguments
  · rw [if_neg hopen, Signature.typeArguments?_none hopen, Option.map_some, TypeArguments.render,
      String.append_empty]
    exact .ok hnext

theorem matches_classType {rounds : Nat} (outer : String) (hpos : start ≤ pos) (h : Ahead input pos cs)
    (hrounds : input.length < pos + rounds) :
    Matches input (classType input limit scan rounds outer pos)
      ((classType? cs).map fun got => (outer ++ got.1.render, got.2)) := by
  induction rounds generalizing outer pos cs with
  | zero => exact absurd h.le_length (Nat.not_le_of_lt hrounds)
  | succ rounds ih =>
    have hsegment := matches_segment htype hscan hlimit hpos h
    rw [classType, Signature.classType?_eq]
    rw [readSegment] at hsegment
    split at hsegment
    · rename_i hempty
      rw [bind_of_error hsegment.eq_malformed, if_pos hempty]
      exact .malformed
    rename_i hname
    rw [if_neg hname]
    cases harguments : typeArguments? (since endsSegment cs) with
    | none =>
      rw [harguments] at hsegment
      rw [bind_of_error hsegment.eq_malformed]
      exact .malformed
    | some got =>
      obtain ⟨arguments, behind⟩ := got
      rw [harguments] at hsegment
      obtain ⟨next, hok, hnext⟩ := hsegment.eq_ok
      have hgone := ((moves_segment hscan).moves h.le_length hok).1
      rw [bind_of_ok hok, Option.bind_some]
      cases behind with
      | nil =>
        rw [bind_of_error (bump_nil hnext)]
        exact .malformed
      | cons c left =>
        rw [bind_of_ok (bump_cons hnext)]
        simp only [lead_eq_iff (a := ';') (by decide), lead_eq_iff (a := '.') (by decide)]
        by_cases hlast : c = ';'
        · subst hlast
          rw [if_pos rfl]
          exact .ok (hnext.succ (by decide))
        rw [if_neg hlast]
        by_cases hdot : c = '.'
        · subst hdot
          have hinner := ih (outer ++ (binaryName (String.ofList (upTo endsSegment cs)) ++
            arguments.render) ++ "$") (by omega) (hnext.succ (by decide)) (by omega)
          rw [if_pos rfl, Signature.afterSegment, Option.map_map]
          simpa only [Function.comp_def, ClassType.render, String.append_assoc] using hinner
        · rw [if_neg hdot]
          have hnone : Signature.afterSegment (upTo endsSegment cs) arguments (c :: left) = none := by
            unfold Signature.afterSegment
            split <;> simp_all
          rw [hnone]
          exact .malformed

end Parts

theorem find?_byteOf_lead (c : Char) :
    (Primitive.all.find? fun p => byteOf p.letter == lead c) = Primitive.ofLetter? c := by
  have hsame (p : Primitive) : (byteOf p.letter == lead c) = (p.letter == c) := by
    have hascii : p.letter.toNat < 128 := by cases p <;> decide
    rw [Bool.eq_iff_iff, beq_iff_eq, beq_iff_eq, eq_comm, lead_eq_iff hascii, eq_comm]
  rw [Primitive.ofLetter?]
  simp only [hsame]

section Types

variable {input limit} (hlimit : input.length < limit) {pos : Nat} {cs : List Char}
include hlimit

/-- The name of a type variable and the semicolon behind it. -/
theorem matches_variable (h : Ahead input pos cs) :
    Matches input ((do
        let name ← takeUntil input [';'] limit
        expect input ';'
        if name = "" then throw .malformed else pure name : Scan String) pos)
      ((type? ('T' :: cs)).map fun got => (got.1.render, got.2)) := by
  have hends (c : Char) : (c == ';') = true ↔ c ∈ [';'] := by simp
  obtain ⟨next, hname, hnext⟩ := (matches_takeUntil (by simp) hends h hlimit).eq_ok
  have hstop := (Signature.stops_since (· == ';') cs).2
  rw [bind_of_ok hname, Signature.type?_variable]
  cases hsince : since (· == ';') cs with
  | nil =>
    rw [hsince] at hnext
    rw [bind_of_error (expect_of_head?_ne (by decide) hnext (by simp)), if_pos (.inr rfl)]
    exact .malformed
  | cons c tail =>
    have hc : c = ';' := beq_iff_eq.mp (hstop c (by rw [hsince]; rfl))
    rw [hsince, hc] at hnext
    obtain ⟨last, hexpect, hlast⟩ := (expect_cons_self (by decide) hnext).eq_ok
    rw [bind_of_ok hexpect]
    by_cases hempty : upTo (· == ';') cs = []
    · rw [if_pos (ofList_eq_empty_iff.mpr hempty), if_pos (.inl hempty)]
      exact .malformed
    · rw [if_neg (mt ofList_eq_empty_iff.mp hempty), if_neg (by simp [hempty])]
      exact .ok hlast

/-- The recursion has enough rounds if they reach from the start to behind the end. -/
theorem readsTypes_type {depth start : Nat} (hdepth : input.length < start + depth) :
    ReadsTypes input start (type input limit depth) := by
  induction depth generalizing start with
  | zero =>
    intro pos cs hpos h
    exact absurd (Nat.le_trans hpos h.le_length) (Nat.not_le_of_lt hdepth)
  | succ depth ih =>
    intro pos cs hpos h
    have htype : ReadsTypes input (start + 1) (type input limit depth) := ih (by omega)
    cases cs with
    | nil =>
      rw [type, bind_of_error (bump_nil h), Signature.type?_nil]
      exact .malformed
    | cons c rest =>
      rw [type, bind_of_ok (bump_cons h), find?_byteOf_lead]
      simp only [lead_eq_iff (a := '[') (by decide), lead_eq_iff (a := 'L') (by decide),
        lead_eq_iff (a := 'T') (by decide)]
      by_cases harray : c = '['
      · subst harray
        rw [Signature.type?_array, Option.map_map]
        exact htype.map (· ++ "[]") (by omega) (h.succ (by decide))
      by_cases hobject : c = 'L'
      · subst hobject
        rw [Signature.type?_object, Option.map_map]
        have hclass := matches_classType htype (moves_type input limit depth) hlimit ""
          (show start + 1 ≤ pos + 1 by omega) (h.succ (by decide)) (Nat.lt_add_left _ hlimit)
        simp only [String.empty_append] at hclass
        exact hclass
      by_cases hvariable : c = 'T'
      · subst hvariable
        exact matches_variable hlimit (h.succ (by decide))
      rw [Signature.type?_letter harray hobject hvariable]
      cases hletter : Primitive.ofLetter? c with
      | none =>
        simp only [if_neg harray, if_neg hobject, if_neg hvariable]
        exact .malformed
      | some p =>
        have hc : c.toNat < 128 := by
          rw [Signature.letter_of_ofLetter? hletter]
          cases p <;> decide
        exact .ok (h.succ hc)

end Types

/-! ### Methods -/

section Methods

variable {input limit} {start : Nat} {scan : Scan String} {pos : Nat} {cs : List Char}
  (htype : ReadsTypes input start scan) (hscan : Moves input 1 scan) (hlimit : input.length < limit)

theorem startsBound_iff :
    startsBound cs = true ↔ cs.head? = some 'L' ∨ cs.head? = some 'T' ∨ cs.head? = some '[' := by
  simp only [List.head?_eq_some_iff]
  unfold startsBound
  split <;> simp_all

include htype hscan in
theorem matches_bounds {rounds : Nat} (hpos : start ≤ pos) (h : Ahead input pos cs)
    (hrounds : input.length < pos + rounds) :
    Matches input (bounds input scan rounds pos) ((skipBounds? cs).map fun rest => ((), rest)) := by
  induction rounds generalizing pos cs with
  | zero => exact absurd h.le_length (Nat.not_le_of_lt hrounds)
  | succ rounds ih =>
    rw [bounds, bind_of_ok (peek_ahead h)]
    simp only [map_lead_eq_iff (a := ':') (by decide)]
    by_cases hcolon : cs.head? = some ':'
    · obtain ⟨rest, rfl⟩ := List.head?_eq_some_iff.mp hcolon
      have hrest := h.succ (by decide)
      rw [if_pos hcolon, bind_of_ok (move_cons h), bind_of_ok (peek_ahead hrest)]
      simp only [map_lead_eq_iff (a := 'L') (by decide), map_lead_eq_iff (a := 'T') (by decide),
        map_lead_eq_iff (a := '[') (by decide), ← startsBound_iff]
      cases hstart : startsBound rest with
      | true =>
        have hread : ((type? rest).bind fun got => skipBounds? got.2).map (fun left => ((), left)) =
            ((type? rest).map fun got => (got.1.render, got.2)).bind fun got =>
              (skipBounds? got.2).map fun left => ((), left) := by
          cases type? rest <;> rfl
        rw [if_pos rfl, Signature.skipBounds?_bound hstart, hread]
        refine (htype (by omega) hrest).bind fun _ next left hgot _ hnext => ?_
        have hgone := (hscan.moves hrest.le_length hgot).1
        exact ih (by omega) hnext (by omega)
      | false =>
        rw [if_neg Bool.false_ne_true, Signature.skipBounds?_empty hstart]
        exact ih (by omega) hrest (by omega)
    · rw [if_neg hcolon, Signature.skipBounds?_end hcolon]
      exact .ok h

/-- What stands behind the type parameters of a method, as Java source writes it. -/
def readCall : List Char → Option (MethodTypes × List Char)
  | '(' :: inner => (parameters inner).bind fun got =>
      (type? got.2).map fun result => (MethodType.render ⟨got.1, result.1⟩, result.2)
  | _ => none

theorem readCall_of_ne (h : cs.head? ≠ some '(') : readCall cs = none := by
  unfold readCall
  split
  · exact absurd rfl h
  · rfl

/-- A type parameter with its bounds. -/
def readTypeParameter (cs : List Char) : Option (Unit × List Char) :=
  if upTo endsParameterName cs = [] then none
  else if (since endsParameterName cs).head? = some ':' then
    (skipBounds? (since endsParameterName cs)).map fun rest => ((), rest)
  else none

theorem endsParameterName_iff_mem (c : Char) : endsParameterName c = true ↔ c ∈ [':', '>'] := by
  simp [endsParameterName]

include htype hscan hlimit

theorem matches_typeParameter (hpos : start ≤ pos) (h : Ahead input pos cs) :
    Matches input (typeParameter input limit scan pos) (readTypeParameter cs) := by
  obtain ⟨next, hname, hnext⟩ :=
    (matches_takeUntil (by simp) endsParameterName_iff_mem h hlimit).eq_ok
  have hgone := ((moves_takeUntil _ _).moves h.le_length hname).1
  rw [typeParameter, bind_of_ok hname, bind_of_ok (peek_ahead hnext), readTypeParameter]
  simp only [ofList_eq_empty_iff, ne_eq, map_lead_eq_iff (a := ':') (by decide)]
  by_cases hempty : upTo endsParameterName cs = []
  · rw [if_pos (.inl hempty), if_pos hempty]
    exact .malformed
  · rw [if_neg hempty]
    by_cases hcolon : (since endsParameterName cs).head? = some ':'
    · rw [if_pos hcolon, if_neg (by simp [hempty, hcolon])]
      exact matches_bounds htype hscan (by omega) hnext (Nat.lt_add_left next hlimit)
    · rw [if_neg hcolon, if_pos (.inr hcolon)]
      exact .malformed

theorem repeats_typeParameter :
    Repeats input start '>' (fun _ : Unit => typeParameter input limit scan)
      (fun _ cs => readTypeParameter cs)
      (fun _ cs => (skipTypeParameters cs).map fun rest => ((), rest)) where
  moves _ := moves_typeParameter hscan
  step hpos h := matches_typeParameter htype hscan hlimit hpos h
  ends _ := by
    rw [Signature.skipTypeParameters_name (by simp)]
    rfl
  closes _ rest := by
    rw [skipTypeParameters]
    rfl
  goesOn h := by
    rw [Signature.skipTypeParameters_name h, readTypeParameter]
    split
    · rfl
    · split
      · cases skipBounds? _ <;> rfl
      · rfl

omit hlimit in
theorem repeats_parameter :
    Repeats input start ')' (fun list => scan >>= fun next => pure (list ++ [next]))
      (fun list cs => (type? cs).map fun got => (list ++ [got.1.render], got.2))
      (fun list cs => (parameters cs).map fun got => (list ++ got.1.map JavaType.render, got.2)) where
  moves list := hscan.bind fun _ => moves_pure _
  step hpos h := htype.map _ hpos h
  ends list := by
    rw [parameters]
    rfl
  closes list rest := by
    rw [Signature.parameters_close]
    simp
  goesOn h := by
    rw [Signature.parameters_type h]
    cases type? _ with
    | none => rfl
    | some got => simp [Function.comp_def]

theorem matches_callTypes (hpos : start ≤ pos) (h : Ahead input pos cs) :
    Matches input (callTypes input limit scan pos) (readCall cs) := by
  by_cases hopen : cs.head? = some '('
  · obtain ⟨inner, rfl⟩ := List.head?_eq_some_iff.mp hopen
    obtain ⟨next, hexpect, hnext⟩ := (expect_cons_self (by decide) h).eq_ok
    have hgone := ((moves_expect '(').moves h.le_length hexpect).1
    have hlist := (repeats_parameter htype hscan).matches (by decide) [] (by omega) hnext
      (Nat.lt_add_left next hlimit)
    have hread : ((parameters inner).bind fun got => (type? got.2).map fun result =>
          (MethodType.render ⟨got.1, result.1⟩, result.2)) =
        ((parameters inner).map fun got => ([] ++ got.1.map JavaType.render, got.2)).bind fun got =>
          (type? got.2).map fun result => (⟨got.1, result.1.render⟩, result.2) := by
      cases parameters inner <;> rfl
    rw [callTypes, bind_of_ok hexpect, readCall, hread]
    refine hlist.bind fun list behind left hgot _ hbehind => ?_
    have hmore := ((moves_repeatUntil (fun list => (hscan.bind fun _ => moves_pure _).weaken) limit
      []).moves hnext.le_length hgot).1
    exact htype.map (MethodTypes.mk list) (by omega) hbehind
  · rw [callTypes, bind_of_error (expect_of_head?_ne (by decide) h hopen), readCall_of_ne hopen]
    exact .malformed

end Methods

/-- A method's types, as Java source writes them. -/
def readMethod : List Char → Option (MethodTypes × List Char)
  | '<' :: inner => (skipTypeParameters inner).bind readCall
  | cs => readCall cs

theorem readMethod_of_ne {cs : List Char} (h : cs.head? ≠ some '<') : readMethod cs = readCall cs := by
  unfold readMethod
  split
  · exact absurd rfl h
  · rfl

theorem readCall_eq (cs : List Char) :
    (readCall cs).map Prod.fst =
      if cs.head? = some '(' then (MethodType.parse? cs).map MethodType.render else none := by
  by_cases hopen : cs.head? = some '('
  · obtain ⟨inner, rfl⟩ := List.head?_eq_some_iff.mp hopen
    rw [if_pos hopen, readCall, Signature.methodType_open, Option.map_bind, Option.map_bind]
    congr 1
    funext got
    simp only [Function.comp_apply, Option.map_map]
    rfl
  · rw [if_neg hopen, readCall_of_ne hopen]
    rfl

theorem readMethod_eq (cs : List Char) :
    (readMethod cs).map Prod.fst = (MethodType.parse? cs).map MethodType.render := by
  by_cases hgeneric : cs.head? = some '<'
  · obtain ⟨inner, rfl⟩ := List.head?_eq_some_iff.mp hgeneric
    rw [readMethod, Signature.methodType_generic, Option.map_bind, Option.map_bind]
    congr 1
    funext declared
    rw [Function.comp_apply, Function.comp_apply, readCall_eq]
    split <;> rfl
  · rw [readMethod_of_ne hgeneric, readCall_eq]
    split
    · rfl
    · rename_i hopen
      rw [Signature.methodType_none hgeneric hopen]
      rfl

theorem matches_methodTypes {input : Bytes} {limit pos : Nat} {cs : List Char} (hlimit : input.length < limit)
    (h : Ahead input pos cs) : Matches input (methodTypes input limit pos) (readMethod cs) := by
  have htype : ReadsTypes input 0 (type input limit limit) :=
    readsTypes_type hlimit (Nat.lt_add_left 0 hlimit)
  have hscan := moves_type input limit limit
  have hzero (place : Nat) : 0 ≤ place := Nat.zero_le place
  rw [methodTypes, bind_of_ok (peek_ahead h)]
  simp only [map_lead_eq_iff (a := '<') (by decide)]
  by_cases hgeneric : cs.head? = some '<'
  · obtain ⟨inner, rfl⟩ := List.head?_eq_some_iff.mp hgeneric
    obtain ⟨next, hexpect, hnext⟩ := (expect_cons_self (by decide) h).eq_ok
    have hparameters := (repeats_typeParameter htype hscan hlimit).matches (by decide) ()
      (hzero next) hnext (Nat.lt_add_left next hlimit)
    have hread : (skipTypeParameters inner).bind readCall =
        ((skipTypeParameters inner).map fun rest => ((), rest)).bind fun got => readCall got.2 := by
      cases skipTypeParameters inner <;> rfl
    rw [if_pos hgeneric, bind_of_ok hexpect, readMethod, hread]
    exact hparameters.bind fun _ behind left _ _ hbehind =>
      matches_callTypes htype hscan hlimit (hzero behind) hbehind
  · rw [if_neg hgeneric, readMethod_of_ne hgeneric]
    exact matches_callTypes htype hscan hlimit (hzero pos) h

/-! ### The law -/

/-- Scanning a text gives what reading its characters gives, with more rounds than the text has bytes, and
so comes to no fault: the position stays within the bytes, no piece is cut inside a character, and no loop
goes on for longer. What is taken out lies between characters, and each type, each class of a class type,
each type argument and each type parameter takes a byte at least. -/
theorem scan_total :
    (∀ (text : String) (limit : Nat), (utf8Bytes text).length < limit →
      (type (utf8Bytes text) limit limit 0).map Prod.fst =
        (renderFieldType text).mapError (fun _ => Halt.malformed) ∧
      (methodTypes (utf8Bytes text) limit 0).map Prod.fst =
        (renderMethodTypes text).mapError (fun _ => Halt.malformed)) ∧
    (∀ (input : Bytes) (stops : List Char) (rounds pos next : Nat) (piece : String),
      takeUntil input stops rounds pos = .ok (piece, next) →
      isBoundary input pos = true ∧ isBoundary input next = true ∧
        utf8Bytes piece = (input.drop pos).take (next - pos)) ∧
    ∀ (input : Bytes) (limit depth : Nat),
      Moves input 1 (type input limit depth) ∧
      Moves input 1 (segment input limit (type input limit depth)) ∧
      Moves input 1 (argument input (type input limit depth)) ∧
      Moves input 1 (typeParameter input limit (type input limit depth)) := by
  refine ⟨fun text limit hlimit => ⟨?_, ?_⟩, fun _ _ _ _ _ _ h => ?_, ?_⟩
  · have htype : ReadsTypes (utf8Bytes text) 0 (type (utf8Bytes text) limit limit) :=
      readsTypes_type hlimit (Nat.lt_add_left 0 hlimit)
    rw [(htype (Nat.zero_le 0) (ahead_start text)).map_fst, renderFieldType, Signature.parse?_eq]
    cases type? text.toList <;> rfl
  · rw [(matches_methodTypes hlimit (ahead_start text)).map_fst, readMethod_eq, renderMethodTypes]
    cases MethodType.parse? text.toList <;> rfl
  · obtain ⟨-, hfirst, hlast, hpiece⟩ := takeUntil_eq_ok h
    exact ⟨hfirst, hlast, utf8Bytes_of_fromUTF8? hpiece⟩
  · intro input limit depth
    have htype := moves_type input limit depth
    exact ⟨htype, moves_segment htype, moves_argument htype, moves_typeParameter htype⟩

/-- A class whose name and whose type variable are outside ASCII, and a method that breaks off behind such a
name; a piece that is one character of two bytes. -/
theorem scan_total_sample :
    (type (utf8Bytes "Lé<+Tü;>;") 12 12 0).map Prod.fst = .ok "é<? extends ü>" ∧
      (methodTypes (utf8Bytes "(Té)V") 7 0).map Prod.fst = .error .malformed ∧
      takeUntil (utf8Bytes "é;") [';'] 3 0 = .ok ("é", 2) ∧
      isBoundary (utf8Bytes "é;") 2 = true ∧ utf8Bytes "é" = ((utf8Bytes "é;").drop 0).take 2 := by
  obtain ⟨hsame, hpiece, -⟩ := scan_total
  have hfield : renderFieldType "Lé<+Tü;>;" = .ok "é<? extends ü>" := by decide +kernel
  have hmethod : renderMethodTypes "(Té)V" = .error ⟨"(Té)V"⟩ := by decide +kernel
  have htake : takeUntil (utf8Bytes "é;") [';'] 3 0 = .ok ("é", 2) := by decide +kernel
  refine ⟨?_, ?_, htake, (hpiece _ _ _ _ _ _ htake).2⟩
  · rw [(hsame "Lé<+Tü;>;" 12 (by decide +kernel)).1, hfield]
    rfl
  · rw [(hsame "(Té)V" 7 (by decide +kernel)).2, hmethod]
    rfl

end ClassReport.SignatureScan
