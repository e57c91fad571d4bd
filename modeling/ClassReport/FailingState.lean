/-!
# Steps that may fail

Readers of bytes, of bits and of texts go on from a state: each gives a value and the state behind it, or
fails. Two steps in a row come to what the second comes to behind the first, or fail as the first does
(`bind_apply`), so what two steps gave was given by each of them (`bind_eq_ok_iff`).
-/

namespace ClassReport.FailingState

variable {σ ε α β : Type} {step : StateT σ (Except ε) α} {next : α → StateT σ (Except ε) β} {start : σ}

theorem bind_apply (step : StateT σ (Except ε) α) (next : α → StateT σ (Except ε) β) (start : σ) :
    (step >>= next) start =
      match step start with
      | .ok (value, middle) => next value middle
      | .error e => .error e := by
  show StateT.bind step next start = _
  unfold StateT.bind
  cases step start <;> rfl

theorem bind_of_ok {value : α} {middle : σ} (h : step start = .ok (value, middle)) :
    (step >>= next) start = next value middle := by
  rw [bind_apply, h]

theorem bind_of_error {e : ε} (h : step start = .error e) : (step >>= next) start = .error e := by
  rw [bind_apply, h]

theorem bind_eq_ok_iff {result : β} {final : σ} :
    (step >>= next) start = .ok (result, final) ↔
      ∃ value middle, step start = .ok (value, middle) ∧ next value middle = .ok (result, final) := by
  rw [bind_apply]
  cases h : step start with
  | error e => simp
  | ok got =>
    constructor
    · intro hnext
      exact ⟨got.1, got.2, rfl, hnext⟩
    · rintro ⟨value, middle, hfirst, hnext⟩
      cases hfirst
      exact hnext

end ClassReport.FailingState
