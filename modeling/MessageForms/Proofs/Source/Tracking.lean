import MessageForms.Source.Cursor

set_option autoImplicit false

/-! Where a cursor stands, said without moving it: the row counts the line feeds of the text behind
it, and the column the characters since the last of them. A cursor that starts at the front of a
text always stands where its two halves say, so it is determined by them. -/

namespace MessageForms

def Position.after (before : Text) : Position :=
  { row := (before.count '\n' : Nat)
    column := ((before.reverse.takeWhile (· ≠ '\n')).length : Nat) }

namespace Cursor

/-- The cursor between two halves of a text. -/
def between (before rest : Text) : Cursor :=
  { consumed := before.reverse
    rest
    row := before.count '\n'
    column := (before.reverse.takeWhile (· ≠ '\n')).length }

@[simp] theorem between_rest (before rest : Text) : (between before rest).rest = rest := rfl

@[simp] theorem between_peek (before rest : Text) : (between before rest).peek = rest.head? := rfl

@[simp] theorem between_here (before rest : Text) :
    (between before rest).here = Position.after before := rfl

@[simp] theorem between_text (before rest : Text) :
    (between before rest).text = before ++ rest := by
  simp only [text, between, List.reverse_reverse]

@[simp] theorem between_preview (before rest : Text) :
    (between before rest).preview = (Position.after before).preview (before ++ rest) := by
  rw [preview, between_here, between_text]

theorem advance_between (before rest : Text) (character : Char) :
    (between before (character :: rest)).advance = between (before ++ [character]) rest := by
  by_cases ends : character = '\n'
  · subst ends
    simp [advance, between]
  · have keepsCount : (before ++ [character]).count '\n' = before.count '\n' := by
      rw [List.count_append, List.count_singleton, if_neg (by simpa using ends), Nat.add_zero]
    simp [advance, between, ends, keepsCount]

theorem advanceBy_between (before piece rest : Text) :
    (between before (piece ++ rest)).advanceBy piece.length = between (before ++ piece) rest := by
  induction piece generalizing before with
  | nil => rw [List.append_nil]; rfl
  | cons character piece ih =>
      rw [List.cons_append, List.length_cons, advanceBy, advance_between, ih, List.append_assoc]
      rfl

theorem readWhile_between (accepts : Char → Bool) (before rest : Text) :
    (between before rest).readWhile accepts =
      (rest.takeWhile accepts,
        between (before ++ rest.takeWhile accepts) (rest.dropWhile accepts)) := by
  have steps := advanceBy_between before (rest.takeWhile accepts) (rest.dropWhile accepts)
  rw [List.takeWhile_append_dropWhile] at steps
  rw [readWhile, between_rest, steps]

end Cursor

end MessageForms
