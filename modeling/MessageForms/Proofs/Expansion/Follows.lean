import MessageForms.Expansion.Program
import MessageForms.Proofs.Definition.Relabeled

set_option autoImplicit false

/-! What a run of expansion comes to. If every expander of a table makes definitions, no heavier
than the forms that they stand for, and asks for nothing but names, then nothing but a problem
raised by an expander ends a run; the log has no part in it, and a run on nodes with other labels
comes to the same, with these labels. -/

namespace MessageForms

def StepLimit.AllowsOne : StepLimit → Prop
  | .atMost replacements => 1 ≤ replacements
  | .unlimited => True

theorem StepLimit.standard_allowsOne : StepLimit.standard.AllowsOne := by
  change (1 : Int) ≤ 10000
  decide

namespace MacroTable

def Raises (table : MacroTable) (problem : Problem) : Prop :=
  ∃ modifiers position expander, table.find? modifiers = some expander ∧
    expander.expand { modifiers, position } = .error (.problem problem)

/-- The replacement of a form is final, and no heavier than the form. -/
structure Settled (modifiers : List Node) (replacement : Node) : Prop where
  final : ∀ inner position, replacement ≠ .macroForm inner position
  lighter : replacement.weight ≤ 1 + Node.weights modifiers

/-- The expanders of the table make definitions, or fail with a problem, and look at no label. -/
structure MakesDefinitions (table : MacroTable) : Prop where
  find?_relabel : ∀ (labels : Relabeling) modifiers,
    table.find? (modifiers.map (·.relabel labels)) = table.find? modifiers
  expand_relabel : ∀ (labels : Relabeling) form, ∀ expander ∈ table.expanders,
    expander.expand (form.relabel labels) =
      labels.outcome (Option.map (·.relabel labels)) (expander.expand form)
  expands : ∀ modifiers position expander, table.find? modifiers = some expander →
    (∃ replacement, expander.expand { modifiers, position } = .ok (some replacement) ∧
      Settled modifiers replacement) ∨
    ∃ problem, expander.expand { modifiers, position } = .error (.problem problem)

end MacroTable

/-! ### Outcomes -/

/-- Whatever the log holds, the run has this outcome. -/
def Comes {α : Type} (run : Expanding α) (outcome : Except Problem α) : Prop :=
  ∀ log, ∃ after, run log =
    match outcome with
    | .ok result => .ok result after
    | .error problem => .error (.problem problem) after

section Comes

variable {α β : Type} {run : Expanding α} {next : α → Expanding β}

theorem comes_pure (result : α) : Comes (pure result) (.ok result) :=
  fun log => ⟨log, rfl⟩

theorem Comes.bind {result : α} {outcome : Except Problem β} (comes : Comes run (.ok result))
    (others : Comes (next result) outcome) : Comes (run >>= next) outcome := by
  intro log
  obtain ⟨middle, done⟩ := comes log
  obtain ⟨after, further⟩ := others middle
  exact ⟨after, (bind_of_ok done).trans further⟩

theorem Comes.bind_problem {problem : Problem} (comes : Comes run (.error problem)) :
    Comes (run >>= next) (.error problem) := by
  intro log
  obtain ⟨after, failed⟩ := comes log
  exact ⟨after, bind_of_error failed⟩

theorem Comes.unique {outcome outcome' : Except Problem α} (comes : Comes run outcome)
    (comes' : Comes run outcome') : outcome' = outcome := by
  obtain ⟨after, done⟩ := comes #[]
  obtain ⟨after', done'⟩ := comes' #[]
  rw [done] at done'
  cases outcome <;> cases outcome' <;> cases done' <;> rfl

end Comes

section Follows

variable (table : MacroTable) (labels : Relabeling)

/-- Both runs come to the same, the second with other labels; a problem is one that an expander of
the table raises. -/
inductive Follows {α : Type} (relabel : α → α) (run run' : Expanding α) : Prop where
  | ok (result : α) (comes : Comes run (.ok result)) (comes' : Comes run' (.ok (relabel result)))
  | problem (raised : Problem) (source : table.Raises raised) (comes : Comes run (.error raised))
      (comes' : Comes run' (.error (raised.relabel labels)))

variable {table labels} {α β : Type} {relabel : α → α} {relabel' : β → β}

theorem follows_pure {result result' : α} (same : result' = relabel result) :
    Follows table labels relabel (pure result) (pure result') := by
  subst same
  exact .ok result (comes_pure _) (comes_pure _)

theorem Follows.bind {run run' : Expanding α} {next next' : α → Expanding β}
    (follows : Follows table labels relabel run run')
    (others : ∀ result, Comes run (.ok result) →
      Follows table labels relabel' (next result) (next' (relabel result))) :
    Follows table labels relabel' (run >>= next) (run' >>= next') := by
  cases follows with
  | problem raised source comes comes' =>
      exact .problem raised source comes.bind_problem comes'.bind_problem
  | ok result comes comes' =>
      cases others result comes with
      | ok final done done' => exact .ok final (comes.bind done) (comes'.bind done')
      | problem raised source failed failed' =>
          exact .problem raised source (comes.bind failed) (comes'.bind failed')

end Follows

end MessageForms
