import MessageForms.Proofs.Source.Tracking
import MessageForms.Proofs.Text.Class

set_option autoImplicit false

/-! Places in a text that stands behind another one. The rows go on counting, and the first row goes
on from the last row in front of it. Places behind more of the text are different places. -/

namespace MessageForms.Position

/-- A place of a text, as a place of the text with `front` before it. -/
def behind (front : Text) (position : Position) : Position :=
  if 0 < position.row then
    { row := position.row + (after front).row, column := position.column }
  else { row := (after front).row, column := position.column + (after front).column }

private theorem unbroken_reverse {text : Text} (unbroken : '\n' ∉ text) :
    ∀ character ∈ text.reverse, decide (character ≠ '\n') = true := by
  intro character among
  rw [List.mem_reverse] at among
  exact decide_eq_true fun same => unbroken (same ▸ among)

theorem after_append_of_unbroken (front : Text) {text : Text} (unbroken : '\n' ∉ text) :
    after (front ++ text) =
      { row := (after front).row, column := (text.length : Nat) + (after front).column } := by
  have none : text.count '\n' = 0 := List.count_eq_zero.mpr unbroken
  simp only [after, List.reverse_append, List.count_append, none, Nat.add_zero,
    List.takeWhile_append_of_pos (unbroken_reverse unbroken), List.length_append,
    List.length_reverse, Int.natCast_add]

theorem column_after_append_of_broken (front : Text) {text : Text} (broken : '\n' ∈ text) :
    (after (front ++ text)).column = (after text).column := by
  obtain ⟨last, others, split, unbroken⟩ :=
    List.eq_append_cons_of_mem (List.mem_reverse.mpr broken)
  have run (rest : Text) :
      (last ++ '\n' :: rest).takeWhile (· ≠ '\n') = last := by
    apply Text.takeWhile_append_of_stops
    · intro character among
      exact decide_eq_true fun same => unbroken (same ▸ among)
    · intro character first
      cases first
      rfl
  simp only [after, List.reverse_append, split, List.append_assoc, List.cons_append, run]

theorem after_append (front text : Text) : after (front ++ text) = (after text).behind front := by
  by_cases broken : '\n' ∈ text
  · have below : 0 < (after text).row := Int.natCast_pos.mpr (List.count_pos_iff.mpr broken)
    have rows : (after (front ++ text)).row = (after text).row + (after front).row := by
      simp only [after, List.count_append, Int.natCast_add]
      exact Int.add_comm _ _
    rw [behind, if_pos below, ← rows, ← column_after_append_of_broken front broken]
  · have whole := after_append_of_unbroken [] broken
    have level : (after text).row = 0 := congrArg Position.row whole
    have columns : (after text).column = (text.length : Nat) := congrArg Position.column whole
    rw [behind, level, if_neg (Int.lt_irrefl 0), columns]
    exact after_append_of_unbroken front broken

/-- No place comes again further on. -/
theorem after_append_ne (front : Text) {text : Text} (nonempty : text ≠ []) :
    after (front ++ text) ≠ after front := by
  intro same
  by_cases broken : '\n' ∈ text
  · have breaks : 0 < text.count '\n' := List.count_pos_iff.mpr broken
    have rows := congrArg Position.row same
    simp only [after, List.count_append] at rows
    omega
  · have positive : 0 < text.length := List.length_pos_iff.mpr nonempty
    rw [after_append_of_unbroken front broken] at same
    have columns := congrArg Position.column same
    dsimp only at columns
    omega

end MessageForms.Position
