set_option autoImplicit false

/-! Running one step of a program with state and failure after another. -/

namespace MessageForms

section Running

variable {ε σ α β : Type} {first : EStateM ε σ α} {next : α → EStateM ε σ β} {state : σ}

theorem bind_apply (first : EStateM ε σ α) (next : α → EStateM ε σ β) (state : σ) :
    (first >>= next) state =
      match first state with
      | .ok value after => next value after
      | .error fault after => .error fault after := by
  change EStateM.bind first next state = _
  rw [EStateM.bind]
  cases first state <;> rfl

theorem bind_of_ok {value : α} {after : σ} (done : first state = .ok value after) :
    (first >>= next) state = next value after := by
  rw [bind_apply, done]

theorem bind_of_error {fault : ε} {after : σ} (failed : first state = .error fault after) :
    (first >>= next) state = .error fault after := by
  rw [bind_apply, failed]

theorem bind_congr_of_ok {next' : α → EStateM ε σ β}
    (same : ∀ value after, first state = .ok value after → next value after = next' value after) :
    (first >>= next) state = (first >>= next') state := by
  rw [bind_apply, bind_apply]
  cases outcome : first state with
  | ok value after => exact same value after outcome
  | error fault after => rfl

theorem exists_of_bind_ok {result : β} {final : σ}
    (done : (first >>= next) state = .ok result final) :
    ∃ value after, first state = .ok value after ∧ next value after = .ok result final := by
  rw [bind_apply] at done
  cases start : first state with
  | ok value after =>
      rw [start] at done
      exact ⟨value, after, rfl, done⟩
  | error fault after =>
      rw [start] at done
      cases done

theorem exists_of_bind_error {fault : ε} {final : σ}
    (failed : (first >>= next) state = .error fault final)
    (starts : first state ≠ .error fault final) :
    ∃ value after, first state = .ok value after ∧ next value after = .error fault final := by
  rw [bind_apply] at failed
  cases start : first state with
  | ok value after =>
      rw [start] at failed
      exact ⟨value, after, rfl, failed⟩
  | error other after =>
      rw [start] at failed starts
      cases failed
      exact (starts rfl).elim

def succeedsWith (test : α → Bool) : EStateM.Result ε σ α → Bool
  | .ok value _ => test value
  | .error _ _ => false

theorem exists_of_succeedsWith {test : α → Bool} {outcome : EStateM.Result ε σ α}
    (succeeds : succeedsWith test outcome = true) :
    ∃ value after, outcome = .ok value after ∧ test value = true := by
  cases outcome with
  | ok value after => exact ⟨value, after, rfl, succeeds⟩
  | error fault after => cases succeeds

end Running

end MessageForms
