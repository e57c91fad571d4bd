import ClassReport.ClassFile.Parser
import ClassReport.Proofs.ClassFileRoundTrip

/-!
# Class files that are cut off or go on

A prompt reader asks for nothing behind what it takes, and a fault that it finds does not depend on
bytes that are still to come (`PromptAt`). Prompt readers compose, so the reader of class files is
prompt. A class file that is cut off anywhere before its end therefore runs out of bytes and does
nothing else, and bytes behind its end, or behind a fault, change nothing (`parse_cut`).
-/

namespace ClassReport

open FailingState

namespace Reader

variable {α β : Type} {reader : Reader α} {bs : Bytes}

/-- On these bytes the reader takes a piece that it takes whatever follows, or finds a fault that
stays whatever follows, or runs out of bytes. -/
structure PromptAt {α : Type} (reader : Reader α) (bs : Bytes) : Prop where
  takes : ∀ {value : α} {rest : Bytes}, reader bs = .ok (value, rest) →
    ∃ used, bs = used ++ rest ∧ Reads reader used value
  faults : ∀ {e : ClassFileError}, reader bs = .error e → e ≠ .unexpectedEnd →
    ∀ more, reader (bs ++ more) = .error e

def Prompt {α : Type} (reader : Reader α) : Prop := ∀ bs, PromptAt reader bs

/-! ### Cutting -/

/-- A prompt reader that is given only a part of what it takes runs out of bytes. -/
theorem Prompt.unexpectedEnd_of_cut (h : Prompt reader) {cut missing : Bytes} {value : α}
    (hreads : Reads reader (cut ++ missing) value) (hne : missing ≠ []) :
    reader cut = .error .unexpectedEnd := by
  have hall : reader (cut ++ missing) = .ok (value, []) := by
    have hnil := hreads []
    rwa [List.append_nil] at hnil
  cases hcut : reader cut with
  | error e =>
    by_cases hend : e = .unexpectedEnd
    · rw [hend]
    · rw [(h cut).faults hcut hend missing] at hall
      cases hall
  | ok got =>
    -- Reading goes on behind what was taken, so all the missing bytes would be left over.
    obtain ⟨early, left⟩ := got
    obtain ⟨used, rfl, hused⟩ := (h _).takes hcut
    rw [List.append_assoc, hused (left ++ missing), Except.ok.injEq, Prod.mk.injEq] at hall
    exact absurd (List.append_eq_nil_iff.mp hall.2).2 hne

/-! ### Steps -/

theorem PromptAt.bind {next : α → Reader β} (hr : PromptAt reader bs)
    (hn : ∀ value rest, reader bs = .ok (value, rest) → PromptAt (next value) rest) :
    PromptAt (reader >>= next) bs := by
  cases hfirst : reader bs with
  | error e =>
    have hbind : (reader >>= next) bs = .error e := bind_of_error hfirst
    constructor
    · intro value rest h
      rw [hbind] at h
      cases h
    · intro e' h hend more
      rw [hbind] at h
      cases h
      exact bind_of_error (hr.faults hfirst hend more)
  | ok got =>
    obtain ⟨value, middle⟩ := got
    have hbind : (reader >>= next) bs = next value middle := bind_of_ok hfirst
    have hnext := hn value middle hfirst
    obtain ⟨used, rfl, hused⟩ := hr.takes hfirst
    constructor
    · intro result rest h
      rw [hbind] at h
      obtain ⟨further, rfl, hfurther⟩ := hnext.takes h
      exact ⟨used ++ further, (List.append_assoc ..).symm, hused.bind hfurther⟩
    · intro e h hend more
      rw [hbind] at h
      rw [bind_apply, List.append_assoc, hused (middle ++ more)]
      exact hnext.faults h hend more

theorem Prompt.bind {next : α → Reader β} (hr : Prompt reader) (hn : ∀ value, Prompt (next value)) :
    Prompt (reader >>= next) := fun bs => (hr bs).bind fun value rest _ => hn value rest

theorem prompt_pure (value : α) : Prompt (pure value : Reader α) := by
  intro bs
  constructor
  · intro got rest h
    cases h
    exact ⟨[], rfl, reads_pure value⟩
  · intro e h
    cases h

theorem prompt_throw (e : ClassFileError) : Prompt (throw e : Reader α) := by
  intro bs
  constructor
  · intro got rest h
    cases h
  · intro e' h _ more
    cases h
    rfl

/-- What is known without the bytes does not depend on them. -/
theorem prompt_lift (outcome : Except ClassFileError α) : Prompt (liftM outcome : Reader α) := by
  cases outcome with
  | ok value => exact prompt_pure value
  | error e => exact prompt_throw e

theorem prompt_u1 : Prompt u1 := by
  intro bs
  constructor
  · intro value rest h
    unfold u1 at h
    split at h <;> cases h
    exact ⟨[_], rfl, fun _ => rfl⟩
  · intro e h hend
    unfold u1 at h
    split at h <;> cases h
    exact absurd rfl hend

theorem prompt_u2 : Prompt u2 := by
  intro bs
  constructor
  · intro value rest h
    unfold u2 at h
    split at h <;> cases h
    exact ⟨[_, _], rfl, fun _ => rfl⟩
  · intro e h hend
    unfold u2 at h
    split at h <;> cases h
    exact absurd rfl hend

theorem prompt_u4 : Prompt u4 := by
  intro bs
  constructor
  · intro value rest h
    unfold u4 at h
    split at h <;> cases h
    exact ⟨[_, _, _, _], rfl, fun _ => rfl⟩
  · intro e h hend
    unfold u4 at h
    split at h <;> cases h
    exact absurd rfl hend

theorem prompt_slice (length : Nat) : Prompt (slice length) := by
  intro bs
  constructor
  · intro value rest h
    unfold slice at h
    split at h
    · rename_i piece left hsplit
      cases h
      obtain ⟨rfl, rfl⟩ := Bytes.split?_eq_some_iff.mp hsplit
      exact ⟨value, rfl, reads_slice value⟩
    · cases h
  · intro e h hend
    unfold slice at h
    split at h <;> cases h
    exact absurd rfl hend

theorem prompt_readMany {item : Reader α} (h : Prompt item) (count : Nat) :
    Prompt (readMany count item) := by
  have hiterate (items : List α) :
      Prompt (iterate (fun items => item >>= fun next => pure (next :: items)) count items) := by
    induction count generalizing items with
    | zero => exact prompt_pure items
    | succ count ih => exact (h.bind fun next => prompt_pure (next :: items)).bind ih
  exact (hiterate []).bind fun reversed => prompt_pure reversed.reverse

/-- Of a body only its outcome on the whole piece counts, so it need not be prompt itself. -/
theorem prompt_within (length : Nat) (body : Reader α) : Prompt (within length body) :=
  (prompt_slice length).bind fun piece =>
    (prompt_lift (body piece)).bind fun got => prompt_pure got.1

theorem prompt_countedList {item : Reader α} (h : Prompt item) :
    Prompt (u2 >>= fun count => readMany count.toNat item) :=
  prompt_u2.bind fun count => prompt_readMany h count.toNat

end Reader

open Reader

/-! ### The pool -/

theorem Constant.prompt_readSlots (count index : Nat) : Prompt (readSlots count index) := by
  refine prompt_u1.bind fun tag => ?_
  cases ConstantLayout.ofTag? tag with
  | none => exact prompt_throw _
  | some layout =>
    cases layout with
    | text =>
      exact prompt_u2.bind fun length => (prompt_slice length.toNat).bind fun _ => prompt_pure _
    | className => exact prompt_u2.bind fun _ => prompt_pure _
    | fixed length => exact (prompt_slice length).bind fun _ => prompt_pure _
    | twoSlots =>
      by_cases hroom : index + 1 < count
      · simp only [if_pos hroom]
        exact (prompt_slice 8).bind fun _ => prompt_pure _
      · simp only [if_neg hroom]
        exact prompt_throw _

namespace ConstantPool

theorem prompt_fill (count : Nat) (slots : Array Constant) : Prompt (fill count slots) := by
  induction hfree : count - slots.size using Nat.strongRecOn generalizing slots with
  | _ free ih =>
    rw [fill]
    split
    · refine (Constant.prompt_readSlots count slots.size).bind fun got => ?_
      obtain ⟨first, second⟩ := got
      cases second with
      | none => exact ih _ (by rw [Array.size_push]; omega) _ rfl
      | some second => exact ih _ (by rw [Array.size_push, Array.size_push]; omega) _ rfl
    · exact prompt_pure slots

theorem prompt_read : Prompt read :=
  prompt_u2.bind fun count => (prompt_fill count.toNat _).bind fun _ => prompt_pure _

theorem prompt_readUtf8 (pool : ConstantPool) : Prompt pool.readUtf8 :=
  prompt_u2.bind fun index => prompt_lift (pool.utf8 index)

theorem prompt_readClassName (pool : ConstantPool) : Prompt pool.readClassName :=
  prompt_u2.bind fun index => prompt_lift (pool.className index)

end ConstantPool

/-! ### Annotations -/

namespace Annotations

variable (pool : ConstantPool) (count : Nat) (todo : List Pending)

/-- A value is stepped over by its tag, what stands before the values inside it, and these. -/
theorem skip_value_eq :
    skip pool (.values (count + 1) :: todo) =
      u1 >>= fun tag => readValueHead pool tag >>= fun inner =>
        skip pool (inner :: .values count :: todo) := by
  funext bs
  cases bs with
  | nil => rw [skip, bind_apply, u1]
  | cons tag rest =>
    have htag : u1 (tag :: rest) = .ok (tag, rest) := rfl
    rw [skip, bind_apply, htag]
    show _ = (readValueHead pool tag >>= _) rest
    rw [bind_apply]
    split
    · rename_i e hhead
      rw [hhead]
    · rename_i inner left hhead
      simp only [hhead]

/-- A named value is stepped over by its name and the value. -/
theorem skip_pair_eq :
    skip pool (.pairs (count + 1) :: todo) =
      u2 >>= fun _ => skip pool (.values 1 :: .pairs count :: todo) := by
  funext bs
  rw [bind_apply]
  cases bs with
  | nil => rw [skip, u2] <;> rintro _ _ _ ⟨⟩
  | cons a rest =>
    cases rest with
    | nil => rw [skip, u2] <;> rintro _ _ _ ⟨⟩
    | cons b rest => rw [skip, u2]

theorem prompt_readHead : Prompt (readHead pool) :=
  pool.prompt_readUtf8.bind fun _ => prompt_u2.bind fun _ => prompt_pure _

theorem prompt_readValueHead (tag : UInt8) : Prompt (readValueHead pool tag) := by
  unfold readValueHead
  split
  · exact prompt_throw _
  · exact prompt_u2.bind fun _ => prompt_pure _
  · exact prompt_u2.bind fun _ => prompt_u2.bind fun _ => prompt_pure _
  · exact (prompt_readHead pool).bind fun _ => prompt_pure _
  · exact prompt_u2.bind fun _ => prompt_pure _

-- What is pending grows while the bytes get fewer, so the induction is on a run of the loop and the
-- bytes are fixed at each of its steps.
theorem promptAt_skip (pool : ConstantPool) (todo : List Pending) (bs : Bytes) :
    PromptAt (skip pool todo) bs := by
  fun_induction skip pool todo bs with
  | case1 bs =>
    have hdone : skip pool [] = pure () := by
      funext bs
      rw [skip]
      rfl
    rw [hdone]
    exact prompt_pure () bs
  | case2 todo bs ih =>
    have hnone := funext (Layout.skip_values_zero pool todo)
    rwa [hnone]
  | case3 todo bs ih =>
    have hnone := funext (Layout.skip_pairs_zero pool todo)
    rwa [hnone]
  | case4 count todo a b rest ih =>
    rw [skip_pair_eq]
    refine (prompt_u2 _).bind fun name left hname => ?_
    cases hname
    exact ih
  | case5 count todo bs hshort =>
    rw [skip_pair_eq]
    refine (prompt_u2 _).bind fun name left hname => ?_
    unfold u2 at hname
    split at hname
    · exact absurd rfl (hshort _ _ _)
    · cases hname
  | case6 count todo tag rest e hhead =>
    rw [skip_value_eq]
    refine (prompt_u1 _).bind fun got left htag => ?_
    cases htag
    refine (prompt_readValueHead pool tag rest).bind fun inner left hinner => ?_
    rw [hhead] at hinner
    cases hinner
  | case7 count todo tag rest inner left hhead _ ih =>
    rw [skip_value_eq]
    refine (prompt_u1 _).bind fun got left htag => ?_
    cases htag
    refine (prompt_readValueHead pool tag rest).bind fun inner left hinner => ?_
    rw [hhead] at hinner
    cases hinner
    exact ih
  | case8 count todo =>
    rw [skip_value_eq]
    refine (prompt_u1 _).bind fun got left htag => ?_
    cases htag

theorem prompt_read (pool : ConstantPool) : Prompt (read pool) :=
  (prompt_readHead pool).bind fun head =>
    Prompt.bind (promptAt_skip pool [.pairs head.2.toNat]) fun _ => prompt_pure head.1

theorem prompt_readList (pool : ConstantPool) : Prompt (readList pool) :=
  prompt_countedList (prompt_read pool)

end Annotations

/-! ### Members and classes -/

theorem MemberAttribute.prompt_read (pool : ConstantPool) : Prompt (read pool) :=
  pool.prompt_readUtf8.bind fun name => prompt_u4.bind fun length =>
    prompt_within length.toNat (readBody pool name)

theorem Member.prompt_read (pool : ConstantPool) : Prompt (read pool) :=
  prompt_u2.bind fun _ => pool.prompt_readUtf8.bind fun _ => pool.prompt_readUtf8.bind fun _ =>
    prompt_u2.bind fun count =>
      (prompt_readMany (MemberAttribute.prompt_read pool) count.toNat).bind fun _ => prompt_pure _

theorem Member.prompt_readList (pool : ConstantPool) : Prompt (readList pool) :=
  prompt_countedList (prompt_read pool)

namespace ClassFile

theorem prompt_readSuperClass (pool : ConstantPool) : Prompt (readSuperClass pool) := by
  refine prompt_u2.bind fun index => ?_
  by_cases hnone : index = 0
  · simp only [if_pos hnone]
    exact prompt_pure none
  · simp only [if_neg hnone]
    exact (prompt_lift (pool.className index)).bind fun name => prompt_pure (some name)

theorem prompt_skipAttribute : Prompt skipAttribute :=
  prompt_u2.bind fun _ => prompt_u4.bind fun length =>
    (prompt_slice length.toNat).bind fun _ => prompt_pure ()

theorem prompt_read : Prompt read := by
  refine prompt_u4.bind fun opening => ?_
  by_cases hmagic : opening ≠ magic
  · simp only [if_pos hmagic]
    exact prompt_throw _
  · simp only [if_neg hmagic]
    refine prompt_u2.bind fun _ => prompt_u2.bind fun _ => ConstantPool.prompt_read.bind fun pool => ?_
    refine prompt_u2.bind fun flags => pool.prompt_readClassName.bind fun thisClass => ?_
    refine (prompt_readSuperClass pool).bind fun superClass => prompt_u2.bind fun interfaceCount => ?_
    refine (prompt_readMany pool.prompt_readClassName interfaceCount.toNat).bind fun interfaces => ?_
    refine (Member.prompt_readList pool).bind fun fields => ?_
    refine (Member.prompt_readList pool).bind fun methods => prompt_u2.bind fun attributeCount => ?_
    exact (prompt_readMany prompt_skipAttribute attributeCount.toNat).bind fun _ => prompt_pure _

theorem parse_eq_ok_iff {bs : Bytes} {file : ClassFile} :
    parse bs = .ok file ↔ ∃ rest, read bs = .ok (file, rest) := by
  rw [parse]
  cases read bs with
  | error e => simp [Except.map]
  | ok got => simp [Except.map, Prod.ext_iff, eq_comm]

theorem parse_eq_error_iff {bs : Bytes} {e : ClassFileError} :
    parse bs = .error e ↔ read bs = .error e := by
  rw [parse]
  cases read bs with
  | error e => simp [Except.map]
  | ok got => simp [Except.map]

/-- The class file that the bytes start with ends at this length: it is there as soon as the bytes
are that long, whatever follows, and fewer bytes end too early and nothing else. -/
structure EndsAt (bs : Bytes) (file : ClassFile) (length : Nat) : Prop where
  length_le : length ≤ bs.length
  cut : ∀ front, front <+: bs → front.length < length → parse front = .error .unexpectedEnd
  goes_on : ∀ more, parse (bs.take length ++ more) = .ok file

variable {bs : Bytes} {file : ClassFile}

theorem EndsAt.not_lt {n m : Nat} (hn : EndsAt bs file n) (hm : EndsAt bs file m) : ¬ n < m := by
  intro hlt
  have hshort : (bs.take n).length < m := by
    rw [List.length_take]
    omega
  have hcut := hm.cut (bs.take n) (List.take_prefix n bs) hshort
  have hall := hn.goes_on []
  rw [List.append_nil, hcut] at hall
  cases hall

theorem exists_endsAt (h : parse bs = .ok file) : ∃ length, EndsAt bs file length := by
  obtain ⟨rest, hread⟩ := parse_eq_ok_iff.mp h
  obtain ⟨used, rfl, hused⟩ := (prompt_read bs).takes hread
  refine ⟨used.length, by simp, ?_, ?_⟩
  · intro front hfront hlt
    obtain ⟨missing, rfl⟩ := List.prefix_of_prefix_length_le hfront (List.prefix_append used rest)
      (Nat.le_of_lt hlt)
    have hne : missing ≠ [] := by
      rintro rfl
      simp at hlt
    exact parse_eq_error_iff.mpr (prompt_read.unexpectedEnd_of_cut hused hne)
  · intro more
    rw [List.take_left]
    exact parse_eq_ok_iff.mpr ⟨more, hused more⟩

/-- A class file has one length. Cut off before it, the bytes run out and nothing else is found;
behind it any bytes may follow. A fault, with the index or tag that it names, stays whatever follows
it. -/
theorem parse_cut :
    (∀ bs file, parse bs = .ok file →
      ∃ length, EndsAt bs file length ∧ ∀ other, EndsAt bs file other → other = length) ∧
    ∀ bs e, parse bs = .error e → e ≠ .unexpectedEnd → ∀ more, parse (bs ++ more) = .error e := by
  constructor
  · intro bs file h
    obtain ⟨length, hends⟩ := exists_endsAt h
    refine ⟨length, hends, ?_⟩
    intro other hother
    have hge := hother.not_lt hends
    have hle := hends.not_lt hother
    omega
  · intro bs e h hend more
    rw [parse_eq_error_iff] at h ⊢
    exact (prompt_read bs).faults h hend more

def bareBytes : Bytes :=
  [0xCA, 0xFE, 0xBA, 0xBE, 0, 0, 0, 52, 0, 3, 1, 0, 1, 66, 7, 0, 1, 0, 1, 0, 2, 0, 0, 0, 0, 0, 0, 0, 0,
    0, 0]

def bare : ClassFile := ⟨⟨1⟩, "B", none, [], [], []⟩

theorem parse_bareBytes : parse bareBytes = .ok bare := by with_unfolding_all rfl

/-- The opening of a class file whose first constant is of an unknown kind. -/
def unknownConstant : Bytes := bigEndian 4 0xCAFEBABE ++ bigEndian 4 52 ++ bigEndian 2 2 ++ [99]

theorem parse_cut_sample :
    (parse (Layout.ClassFile.sample.encode ++ [0xCA, 0xFE]) = .ok Layout.ClassFile.sample.content ∧
      ∃ length, EndsAt (Layout.ClassFile.sample.encode ++ [0xCA, 0xFE])
        Layout.ClassFile.sample.content length) ∧
    parse unknownConstant = .error (.unsupportedConstant 99) ∧
      ∀ more, parse (unknownConstant ++ more) = .error (.unsupportedConstant 99) := by
  have hsample : parse (Layout.ClassFile.sample.encode ++ [0xCA, 0xFE]) =
      .ok Layout.ClassFile.sample.content :=
    parse_eq_ok_iff.mpr ⟨_, Layout.ClassFile.sample.reads Layout.ClassFile.sample_fits _⟩
  have hunknown : parse unknownConstant = .error (.unsupportedConstant 99) := by
    with_unfolding_all rfl
  obtain ⟨length, hends, -⟩ := parse_cut.1 _ _ hsample
  exact ⟨⟨hsample, length, hends⟩, hunknown, parse_cut.2 _ _ hunknown (by decide)⟩

end ClassFile

end ClassReport
