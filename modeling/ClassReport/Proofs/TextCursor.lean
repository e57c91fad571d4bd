import ClassReport.FailingState
import ClassReport.Proofs.RecordBuffer
import ClassReport.Proofs.SignatureGrammar

/-!
# A cursor on the bytes of a text

Signatures can be read by a position in the bytes of their text, which goes on byte by byte, and pieces of
the text are cut out between two positions. A position must stay within the bytes, a piece must begin and
end between characters, and a loop must end: what breaks this is a `Fault`, apart from text that is only
malformed. Where the position is in front of some characters (`Ahead`), looking for characters below 128
finds the same as among the characters themselves and cuts out what stands before them
(`matches_takeUntil`); and nothing moves the position back (`Moves`).
-/

namespace ClassReport.TextCursor
open FailingState
open RecordBuffer (byteOf byte_mem_encodeChar_iff fromUTF8?_utf8Bytes)
open Signature (upTo since upTo_append_since stops_since)

/-- What must never happen. -/
inductive Fault where
  /-- The position leaves the text. -/
  | outside
  /-- A piece begins or ends inside a character. -/
  | cutCharacter
  | noText
  /-- A loop or a recursion goes on for more rounds than it may. -/
  | endless
  deriving DecidableEq, Repr

/-- Why scanning ended early. -/
inductive Halt where
  | malformed
  | fault (fault : Fault)
  deriving DecidableEq, Repr

/-- Goes on from a position, and gives a value. -/
abbrev Scan (α : Type) := StateT Nat (Except Halt) α

variable (input : Bytes)

def peek : Scan (Option UInt8) := fun pos => .ok (input[pos]?, pos)

def move : Scan Unit := fun pos =>
  if pos < input.length then .ok ((), pos + 1) else .error (.fault .outside)

/-- The next byte, which has to be there. -/
def bump : Scan UInt8 := do
  match ← peek input with
  | none => throw .malformed
  | some b =>
    move input
    pure b

def expect (wanted : Char) : Scan Unit := do
  let b ← bump input
  if b = byteOf wanted then pure () else throw .malformed

/-- Whether a character begins at the position, or the text ends there. -/
def isBoundary (pos : Nat) : Bool :=
  match input[pos]? with
  | some b => b.toNat < 128 || 192 ≤ b.toNat
  | none => pos = input.length

/-- The text between two positions. -/
def slice (start stop : Nat) : Scan String := fun pos =>
  if start ≤ stop ∧ isBoundary input start ∧ isBoundary input stop then
    match String.fromUTF8? ⟨((input.drop start).take (stop - start)).toArray⟩ with
    | some text => .ok (text, pos)
    | none => .error (.fault .noText)
  else .error (.fault .cutCharacter)

/-- Goes on to the first byte that stops, or to the end. -/
def skipUntil (stops : List Char) : Nat → Scan Unit
  | 0 => throw (.fault .endless)
  | rounds + 1 => do
    match ← peek input with
    | none => pure ()
    | some b =>
      if b ∈ stops.map byteOf then pure ()
      else do
        move input
        skipUntil stops rounds

/-- The text up to the first byte that stops. -/
def takeUntil (stops : List Char) (rounds : Nat) : Scan String := do
  let start ← get
  skipUntil input stops rounds
  let stop ← get
  slice input start stop

/-! ### Going on -/

variable {input} {α β : Type} {m : Scan α} {k : α → Scan β} {pos next : Nat}

/-- Where a value is given, the position has gone on by so many bytes at least, and is still within the
text. -/
structure Moves (input : Bytes) {α : Type} (count : Nat) (m : Scan α) : Prop where
  moves : ∀ {pos next : Nat} {value : α}, pos ≤ input.length → m pos = .ok (value, next) →
    pos + count ≤ next ∧ next ≤ input.length

variable {count : Nat}

theorem Moves.weaken (h : Moves input count m) : Moves input 0 m where
  moves hpos hm := by
    have hnext := h.moves hpos hm
    omega

/-- Two steps go on by what each of them goes on by. -/
theorem Moves.seq {more : Nat} (hm : Moves input count m) (hk : ∀ value, Moves input more (k value)) :
    Moves input (count + more) (m >>= k) where
  moves hpos h := by
    obtain ⟨value, middle, hfirst, hsecond⟩ := bind_eq_ok_iff.mp h
    obtain ⟨hge, hle⟩ := hm.moves hpos hfirst
    have hnext := (hk value).moves hle hsecond
    omega

theorem Moves.bind (hm : Moves input count m) (hk : ∀ value, Moves input 0 (k value)) :
    Moves input count (m >>= k) := hm.seq hk

/-- It is the second step that goes on. -/
theorem Moves.before (hm : Moves input 0 m) (hk : ∀ value, Moves input count (k value)) :
    Moves input count (m >>= k) := by
  have hseq := hm.seq hk
  rwa [Nat.zero_add] at hseq

theorem moves_pure (value : α) : Moves input 0 (pure value : Scan α) where
  moves hpos h := by
    cases h
    exact ⟨Nat.le_refl _, hpos⟩

theorem moves_throw (count : Nat) (e : Halt) : Moves input count (throw e : Scan α) where
  moves _ h := nomatch h

theorem moves_peek : Moves input 0 (peek input) where
  moves hpos h := by
    cases h
    exact ⟨Nat.le_refl _, hpos⟩

theorem moves_move : Moves input 1 (move input) where
  moves hpos h := by
    unfold move at h
    split at h
    · cases h
      omega
    · cases h

theorem moves_bump : Moves input 1 (bump input) := by
  refine moves_peek.before fun b => ?_
  cases b with
  | none => exact moves_throw 1 _
  | some b => exact moves_move.bind fun _ => moves_pure b

theorem moves_expect (wanted : Char) : Moves input 1 (expect input wanted) := by
  refine moves_bump.bind fun b => ?_
  split
  · exact moves_pure ()
  · exact moves_throw 0 _

theorem moves_skipUntil (stops : List Char) (rounds : Nat) : Moves input 0 (skipUntil input stops rounds) := by
  induction rounds with
  | zero => exact moves_throw 0 _
  | succ rounds ih =>
    refine moves_peek.before fun b => ?_
    cases b with
    | none => exact moves_pure ()
    | some b =>
      show Moves input 0 (if b ∈ stops.map byteOf then _ else _)
      split
      · exact moves_pure ()
      · exact moves_move.weaken.before fun _ => ih

theorem utf8Bytes_of_fromUTF8? {bs : Bytes} {text : String}
    (h : String.fromUTF8? ⟨bs.toArray⟩ = some text) : utf8Bytes text = bs := by
  unfold String.fromUTF8? at h
  split at h
  · cases h
    rfl
  · cases h

/-- What is cut out lies between two boundaries and is the text that stands there. -/
theorem slice_eq_ok {start stop : Nat} {piece : String} (h : slice input start stop pos = .ok (piece, next)) :
    next = pos ∧ isBoundary input start = true ∧ isBoundary input stop = true ∧
      String.fromUTF8? ⟨((input.drop start).take (stop - start)).toArray⟩ = some piece := by
  unfold slice at h
  split at h
  · rename_i hbounds
    split at h
    · rename_i text htext
      cases h
      exact ⟨rfl, hbounds.2.1, hbounds.2.2, htext⟩
    · cases h
  · cases h

theorem takeUntil_eq_ok {stops : List Char} {rounds : Nat} {piece : String}
    (h : takeUntil input stops rounds pos = .ok (piece, next)) :
    skipUntil input stops rounds pos = .ok ((), next) ∧
      isBoundary input pos = true ∧ isBoundary input next = true ∧
      String.fromUTF8? ⟨((input.drop pos).take (next - pos)).toArray⟩ = some piece := by
  obtain ⟨start, _, hget, h⟩ := bind_eq_ok_iff.mp h
  cases hget
  obtain ⟨⟨⟩, stop, hskip, h⟩ := bind_eq_ok_iff.mp h
  obtain ⟨_, _, hget, h⟩ := bind_eq_ok_iff.mp h
  cases hget
  obtain ⟨rfl, hbounds⟩ := slice_eq_ok h
  exact ⟨hskip, hbounds⟩

theorem moves_takeUntil (stops : List Char) (rounds : Nat) :
    Moves input 0 (takeUntil input stops rounds) where
  moves hpos h := (moves_skipUntil stops rounds).moves hpos (takeUntil_eq_ok h).1

/-- A piece that is not empty has bytes. -/
theorem lt_of_takeUntil {stops : List Char} {rounds : Nat} {piece : String} (hpos : pos ≤ input.length)
    (h : takeUntil input stops rounds pos = .ok (piece, next)) (hne : piece ≠ "") : pos < next := by
  obtain ⟨hskip, -, -, hpiece⟩ := takeUntil_eq_ok h
  have hge := ((moves_skipUntil stops rounds).moves hpos hskip).1
  by_cases hstay : next = pos
  · have hempty : String.fromUTF8? ⟨#[]⟩ = some "" := fromUTF8?_utf8Bytes ""
    rw [hstay, Nat.sub_self, List.take_zero, hempty, Option.some.injEq] at hpiece
    exact absurd hpiece.symm hne
  · omega

/-! ### In front of characters -/

/-- The bytes of characters. -/
def encoded (cs : List Char) : Bytes := cs.flatMap String.utf8EncodeChar

/-- The position is in front of these characters, which go on to the end. -/
def Ahead (input : Bytes) (pos : Nat) (cs : List Char) : Prop :=
  ∃ before, input = encoded before ++ encoded cs ∧ pos = (encoded before).length

variable {c : Char} {cs : List Char}

theorem encoded_append (cs more : List Char) : encoded (cs ++ more) = encoded cs ++ encoded more :=
  List.flatMap_append

theorem encoded_eq_utf8Bytes (cs : List Char) : encoded cs = utf8Bytes (String.ofList cs) := by
  rw [Utf8Order.utf8Bytes_eq, String.toList_ofList, encoded]

theorem ahead_start (text : String) : Ahead (utf8Bytes text) 0 text.toList :=
  ⟨[], Utf8Order.utf8Bytes_eq text, rfl⟩

theorem Ahead.add_length (h : Ahead input pos cs) : pos + (encoded cs).length = input.length := by
  obtain ⟨before, rfl, rfl⟩ := h
  rw [List.length_append]

theorem Ahead.le_length (h : Ahead input pos cs) : pos ≤ input.length := by
  have hlength := h.add_length
  omega

theorem Ahead.skip {name tail : List Char} (h : Ahead input pos (name ++ tail)) :
    Ahead input (pos + (encoded name).length) tail := by
  obtain ⟨before, rfl, rfl⟩ := h
  refine ⟨before ++ name, ?_, ?_⟩
  · rw [encoded_append, encoded_append, List.append_assoc]
  · rw [encoded_append, List.length_append]

/-- The first byte of a character. -/
def lead (c : Char) : UInt8 := (String.utf8EncodeChar c).headD 0

theorem encodeChar_eq (c : Char) : ∃ more, String.utf8EncodeChar c = lead c :: more := by
  obtain ⟨b, more, h⟩ := List.exists_cons_of_ne_nil (String.utf8EncodeChar_ne_nil (c := c))
  refine ⟨more, ?_⟩
  rw [lead, h, List.headD_cons]

/-- A character never begins with a byte that goes on with one. -/
theorem lead_lt_or_le (c : Char) : (lead c).toNat < 128 ∨ 192 ≤ (lead c).toNat := by
  have hmax : c.val.toNat < 0x110000 := by
    rcases c.valid with h | h
    · exact Nat.lt_trans h (by decide)
    · exact h.2
  rw [lead, String.utf8EncodeChar]
  generalize c.val.toNat = v at *
  -- One case for each length.
  repeat' split
  all_goals
    simp only [List.headD_cons, UInt8.toNat_ofNat']
    omega

/-- A character below 128 is one byte. -/
theorem encodeChar_ascii {a : Char} (ha : a.toNat < 128) : String.utf8EncodeChar a = [byteOf a] := by
  have hle : a.val.toNat ≤ 127 := Nat.le_of_lt_succ ha
  rw [String.utf8EncodeChar]
  simp only [if_pos hle]
  rfl

theorem lead_eq_iff {a : Char} (ha : a.toNat < 128) : lead c = byteOf a ↔ c = a := by
  constructor
  · intro h
    obtain ⟨more, hencode⟩ := encodeChar_eq c
    have hmem : byteOf a ∈ String.utf8EncodeChar c := by
      rw [hencode, h]
      exact List.mem_cons_self
    exact (byte_mem_encodeChar_iff ha).mp hmem
  · rintro rfl
    rw [lead, encodeChar_ascii ha, List.headD_cons]

theorem Ahead.getElem?_cons (h : Ahead input pos (c :: cs)) : input[pos]? = some (lead c) := by
  obtain ⟨before, rfl, rfl⟩ := h
  obtain ⟨more, hencode⟩ := encodeChar_eq c
  rw [List.getElem?_append_right (Nat.le_refl _), Nat.sub_self, encoded, List.flatMap_cons, hencode]
  rfl

theorem Ahead.getElem?_nil (h : Ahead input pos []) : input[pos]? = none := by
  obtain ⟨before, rfl, rfl⟩ := h
  rw [List.getElem?_append_right (Nat.le_refl _), Nat.sub_self]
  rfl

theorem Ahead.isBoundary (h : Ahead input pos cs) : isBoundary input pos = true := by
  cases cs with
  | nil =>
    have hlength := h.add_length
    rw [TextCursor.isBoundary, h.getElem?_nil]
    exact decide_eq_true hlength
  | cons c cs =>
    rw [TextCursor.isBoundary, h.getElem?_cons]
    simpa using lead_lt_or_le c

theorem Ahead.lt_length (h : Ahead input pos (c :: cs)) : pos < input.length :=
  (List.getElem?_eq_some_iff.mp h.getElem?_cons).1

/-- Behind a character below 128 the next one begins. -/
theorem Ahead.succ (h : Ahead input pos (c :: cs)) (hc : c.toNat < 128) : Ahead input (pos + 1) cs := by
  have hskip : Ahead input (pos + (encoded [c]).length) cs := Ahead.skip h
  rwa [encoded, List.flatMap_singleton, encodeChar_ascii hc] at hskip

/-! ### Scanning and reading -/

/-- The scan gives what is read from the characters and stops in front of the rest, or the text is malformed
and nothing is read. There is no fault. -/
inductive Matches (input : Bytes) {α : Type} : Except Halt (α × Nat) → Option (α × List Char) → Prop
  | ok {value : α} {next : Nat} {rest : List Char} (h : Ahead input next rest) :
      Matches input (.ok (value, next)) (some (value, rest))
  | malformed : Matches input (.error .malformed) none

variable {want : Option (α × List Char)}

theorem Matches.bind {use : α × List Char → Option (β × List Char)} (hm : Matches input (m pos) want)
    (hk : ∀ value next rest, m pos = .ok (value, next) → want = some (value, rest) →
      Ahead input next rest → Matches input (k value next) (use (value, rest))) :
    Matches input ((m >>= k) pos) (want.bind use) := by
  cases hgot : m pos with
  | error e =>
    rw [hgot] at hm
    cases hm
    rw [bind_of_error hgot]
    exact .malformed
  | ok got =>
    obtain ⟨value, next⟩ := got
    rw [hgot] at hm
    cases hm with
    | ok h =>
      rw [bind_of_ok hgot]
      exact hk _ _ _ hgot rfl h

/-- A last step that takes nothing. -/
theorem Matches.map (f : α → β) (hm : Matches input (m pos) want) :
    Matches input ((m >>= fun value => pure (f value)) pos)
      (want.map fun got => (f got.1, got.2)) := by
  rw [Option.map_eq_bind]
  exact hm.bind fun value next rest _ _ h => .ok h

theorem Matches.eq_ok {value : α} {rest : List Char} (h : Matches input (m pos) (some (value, rest))) :
    ∃ next, m pos = .ok (value, next) ∧ Ahead input next rest := by
  generalize m pos = got at h
  cases h with
  | @ok _ next _ h => exact ⟨next, rfl, h⟩

theorem Matches.eq_malformed (h : Matches input (m pos) none) : m pos = .error .malformed := by
  generalize m pos = got at h
  cases h
  rfl

/-- Apart from the position, what a scan comes to is what was read. -/
theorem Matches.map_fst {got : Except Halt (α × Nat)} (h : Matches input got want) :
    got.map Prod.fst = (want.map Prod.fst).elim (.error .malformed) .ok := by
  cases h <;> rfl

theorem peek_nil (h : Ahead input pos []) : peek input pos = .ok (none, pos) := by
  rw [peek, h.getElem?_nil]

theorem peek_cons (h : Ahead input pos (c :: cs)) : peek input pos = .ok (some (lead c), pos) := by
  rw [peek, h.getElem?_cons]

theorem move_cons (h : Ahead input pos (c :: cs)) : move input pos = .ok ((), pos + 1) := by
  rw [move, if_pos h.lt_length]

theorem bump_nil (h : Ahead input pos []) : bump input pos = .error .malformed := by
  rw [bump, bind_of_ok (peek_nil h)]
  rfl

theorem bump_cons (h : Ahead input pos (c :: cs)) : bump input pos = .ok (lead c, pos + 1) := by
  rw [bump, bind_of_ok (peek_cons h)]
  show (move input >>= fun _ => pure (lead c)) pos = _
  rw [bind_of_ok (move_cons h)]
  rfl

theorem peek_ahead (h : Ahead input pos cs) : peek input pos = .ok (cs.head?.map lead, pos) := by
  cases cs with
  | nil => exact peek_nil h
  | cons c cs => exact peek_cons h

/-- A character below 128 is found where it stands and nowhere else. -/
theorem map_lead_eq_iff {a : Char} (ha : a.toNat < 128) :
    cs.head?.map lead = some (byteOf a) ↔ cs.head? = some a := by
  cases cs with
  | nil => simp
  | cons c cs => simp only [List.head?_cons, Option.map_some, Option.some.injEq, lead_eq_iff ha]

theorem expect_cons_self {a : Char} (ha : a.toNat < 128) (h : Ahead input pos (a :: cs)) :
    Matches input (expect input a pos) (some ((), cs)) := by
  rw [expect, bind_of_ok (bump_cons h), if_pos ((lead_eq_iff ha).mpr rfl)]
  exact .ok (h.succ ha)

theorem expect_of_head?_ne {a : Char} (ha : a.toNat < 128) (h : Ahead input pos cs)
    (hne : cs.head? ≠ some a) : expect input a pos = .error .malformed := by
  cases cs with
  | nil => rw [expect, bind_of_error (bump_nil h)]
  | cons c cs =>
    have hlead : lead c ≠ byteOf a := fun heq => hne (congrArg some ((lead_eq_iff ha).mp heq))
    rw [expect, bind_of_ok (bump_cons h), if_neg hlead]
    rfl

/-! ### Pieces -/

section Stops

variable {stops : List Char} {stop : Char → Bool}

theorem peek_append (front bs : Bytes) :
    peek (front ++ bs) front.length = .ok (bs.head?, front.length) := by
  rw [peek, List.getElem?_append_right (Nat.le_refl _), Nat.sub_self, List.head?_eq_getElem?]

/-- Bytes that do not stop are passed, one in each round. -/
theorem skipUntil_passed {front passed tail : Bytes} {rounds : Nat}
    (hpassed : ∀ b ∈ passed, b ∉ stops.map byteOf) (htail : ∀ b ∈ tail.head?, b ∈ stops.map byteOf)
    (hrounds : passed.length < rounds) :
    skipUntil (front ++ (passed ++ tail)) stops rounds front.length =
      .ok ((), front.length + passed.length) := by
  obtain ⟨rounds, rfl⟩ := Nat.exists_eq_succ_of_ne_zero (Nat.ne_zero_of_lt hrounds)
  induction passed generalizing front rounds with
  | nil =>
    rw [List.nil_append, skipUntil, bind_of_ok (peek_append front tail)]
    cases tail with
    | nil => rfl
    | cons b tail =>
      have hb : b ∈ stops.map byteOf := htail b rfl
      simp only [List.head?_cons, if_pos hb]
      rfl
  | cons b passed ih =>
    obtain ⟨hb, hpassed⟩ := List.forall_mem_cons.mp hpassed
    rw [List.length_cons] at hrounds
    obtain ⟨rounds, rfl⟩ := Nat.exists_eq_succ_of_ne_zero (show rounds ≠ 0 by omega)
    have hmove : move (front ++ b :: (passed ++ tail)) front.length = .ok ((), front.length + 1) :=
      if_pos (by simp)
    have hrest := @ih (front ++ [b]) hpassed rounds (by omega)
    rw [List.append_assoc, List.length_append, List.length_singleton] at hrest
    rw [skipUntil, bind_of_ok (peek_append front _)]
    simp only [List.cons_append, List.head?_cons, if_neg hb]
    rw [bind_of_ok hmove]
    refine hrest.trans ?_
    rw [List.length_cons, Nat.add_assoc, Nat.add_comm 1]

variable (hascii : ∀ a ∈ stops, a.toNat < 128) (hstop : ∀ c, stop c = true ↔ c ∈ stops)
include hascii hstop

/-- A byte of a character stops exactly where the character stops. -/
theorem mem_stops_iff : (∃ b ∈ String.utf8EncodeChar c, b ∈ stops.map byteOf) ↔ stop c = true := by
  rw [hstop]
  constructor
  · rintro ⟨b, hb, hmem⟩
    obtain ⟨a, ha, rfl⟩ := List.mem_map.mp hmem
    rwa [(byte_mem_encodeChar_iff (hascii a ha)).mp hb]
  · intro hc
    exact ⟨byteOf c, (byte_mem_encodeChar_iff (hascii c hc)).mpr rfl, List.mem_map_of_mem hc⟩

theorem matches_takeUntil {rounds : Nat} (h : Ahead input pos cs) (hrounds : input.length < rounds) :
    Matches input (takeUntil input stops rounds pos)
      (some (String.ofList (upTo stop cs), since stop cs)) := by
  obtain ⟨hfree, hhead⟩ := stops_since stop cs
  have hsplit := upTo_append_since stop cs
  generalize upTo stop cs = name at *
  generalize since stop cs = tail at *
  subst hsplit
  have hpassed : ∀ b ∈ encoded name, b ∉ stops.map byteOf := by
    intro b hb hmem
    obtain ⟨c, hc, hbyte⟩ := List.mem_flatMap.mp hb
    have hstops := (mem_stops_iff hascii hstop).mp ⟨b, hbyte, hmem⟩
    rw [hfree c hc] at hstops
    cases hstops
  have htail : ∀ b ∈ (encoded tail).head?, b ∈ stops.map byteOf := by
    cases tail with
    | nil => exact fun b hb => nomatch hb
    | cons c tail =>
      have hc : c ∈ stops := (hstop c).mp (hhead c rfl)
      rw [encoded, List.flatMap_cons, encodeChar_ascii (hascii c hc)]
      rintro b ⟨⟩
      exact List.mem_map_of_mem hc
  have hboundary := h.isBoundary
  have hnext : Ahead input (pos + (encoded name).length) tail := h.skip
  have hlength := hnext.le_length
  obtain ⟨before, hinput, hpos⟩ := h
  rw [encoded_append] at hinput
  have hskip : skipUntil input stops rounds pos = .ok ((), pos + (encoded name).length) := by
    rw [hinput, hpos]
    exact skipUntil_passed hpassed htail (by omega)
  have hpiece : (input.drop pos).take (pos + (encoded name).length - pos) = encoded name := by
    rw [hinput, hpos, List.drop_left, Nat.add_sub_cancel_left, List.take_left]
  have hslice (place : Nat) : slice input pos (pos + (encoded name).length) place =
      .ok (String.ofList name, place) := by
    rw [slice, if_pos ⟨Nat.le_add_right _ _, hboundary, hnext.isBoundary⟩, hpiece,
      encoded_eq_utf8Bytes, fromUTF8?_utf8Bytes]
  have hget (place : Nat) : (get : Scan Nat) place = .ok (place, place) := rfl
  rw [takeUntil, bind_of_ok (hget pos), bind_of_ok hskip, bind_of_ok (hget _), hslice]
  exact .ok hnext

end Stops

end ClassReport.TextCursor
