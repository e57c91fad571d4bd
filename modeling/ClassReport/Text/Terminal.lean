/-!
# Text for a terminal

Text that is shown on a terminal must not steer it. The controls that a terminal acts on are spelled out
by their codes, and every other character, line ends and tabs among them, stands for itself. What is
shown holds none of these controls (`steers_of_mem_shown`).
-/

namespace ClassReport.Terminal

/-- Bell, backspace, form feed, escape and delete. -/
def lowControls : List Char := ['\x07', '\x08', '\x0C', '\x1B', '\x7F']

/-- Whether a character is one of the controls behind ASCII. -/
def isHighControl (c : Char) : Bool := 0x80 ≤ c.toNat && c.toNat ≤ 0x9F

/-- Whether a terminal acts on a character. -/
def steers (c : Char) : Bool := lowControls.contains c || isHighControl c

/-- The code of a control in two hexadecimal digits. -/
def code (c : Char) : List Char := [Nat.digitChar (c.toNat / 16 % 16), Nat.digitChar (c.toNat % 16)]

def spell (c : Char) : List Char :=
  if lowControls.contains c then '\\' :: 'x' :: code c
  else if isHighControl c then '\\' :: 'u' :: '\x7b' :: code c ++ ['\x7d']
  else [c]

def shown (text : String) : String := String.ofList (text.toList.flatMap spell)

theorem steers_digitChar : ∀ n < 16, steers (Nat.digitChar n) = false := by decide

theorem steers_of_mem_code {c d : Char} (h : d ∈ code c) : steers d = false := by
  simp only [code, List.mem_cons, List.not_mem_nil, or_false] at h
  rcases h with rfl | rfl
  · exact steers_digitChar _ (by omega)
  · exact steers_digitChar _ (by omega)

theorem steers_of_mem_spell {c d : Char} (h : d ∈ spell c) : steers d = false := by
  unfold spell at h
  split at h
  · simp only [List.mem_cons] at h
    rcases h with rfl | rfl | h
    · decide
    · decide
    · exact steers_of_mem_code h
  · split at h
    · simp only [List.cons_append, List.mem_cons, List.mem_append, List.not_mem_nil, or_false] at h
      rcases h with rfl | rfl | rfl | h | rfl
      · decide
      · decide
      · decide
      · exact steers_of_mem_code h
      · decide
    · rename_i hlow hhigh
      simp only [List.mem_cons, List.not_mem_nil, or_false] at h
      subst h
      rw [steers, Bool.eq_false_iff.mpr hlow, Bool.eq_false_iff.mpr hhigh, Bool.false_or]

theorem steers_of_mem_shown {text : String} {d : Char} (h : d ∈ (shown text).toList) :
    steers d = false := by
  simp only [shown, String.toList_ofList, List.mem_flatMap] at h
  obtain ⟨c, _, hd⟩ := h
  exact steers_of_mem_spell hd

end ClassReport.Terminal
