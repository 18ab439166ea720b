import MessageForms.Source.Position

set_option autoImplicit false

/-! A place inside a text, split there into what was read and what is still to come. The row and
the column are counted along the way. -/

namespace MessageForms

/-- A text with a reading place. `consumed` holds what lies behind it, nearest first. -/
structure Cursor where
  consumed : Text
  rest : Text
  row : Nat
  column : Nat
deriving DecidableEq, Inhabited

namespace Cursor

def ofText (text : Text) : Cursor :=
  { consumed := [], rest := text, row := 0, column := 0 }

def text (cursor : Cursor) : Text :=
  cursor.consumed.reverse ++ cursor.rest

def position (cursor : Cursor) : Nat :=
  cursor.consumed.length

def here (cursor : Cursor) : Position :=
  { row := cursor.row, column := cursor.column }

def preview (cursor : Cursor) : Text :=
  cursor.here.preview cursor.text

def peek (cursor : Cursor) : Option Char :=
  cursor.rest.head?

/-- The cursor after the next character; at the end of the text it stays. -/
def advance (cursor : Cursor) : Cursor :=
  match cursor.rest with
  | [] => cursor
  | character :: rest =>
      if character = '\n' then
        { consumed := character :: cursor.consumed, rest, row := cursor.row + 1, column := 0 }
      else
        { consumed := character :: cursor.consumed, rest, row := cursor.row,
          column := cursor.column + 1 }

def advanceBy : Nat → Cursor → Cursor
  | 0, cursor => cursor
  | count + 1, cursor => advanceBy count cursor.advance

/-- The place after the first `start` characters of a text. -/
def startingAt (text : Text) (start : Nat) : Cursor :=
  (ofText text).advanceBy start

/-- A cursor of its own over the same text. It is put at the same place with the row and the column
that were counted, and does not count them again. -/
def clone (cursor : Cursor) : Cursor :=
  { consumed := (cursor.text.take cursor.position).reverse
    rest := cursor.text.drop cursor.position
    row := cursor.row
    column := cursor.column }

/-- The longest run of accepted characters from here, and the cursor behind it. -/
def readWhile (accepts : Char → Bool) (cursor : Cursor) : Text × Cursor :=
  let run := cursor.rest.takeWhile accepts
  (run, cursor.advanceBy run.length)

@[simp] theorem advance_text (cursor : Cursor) : cursor.advance.text = cursor.text := by
  unfold advance text
  split
  · rfl
  · rename_i character rest following
    split <;> simp [following]

@[simp] theorem advanceBy_text (count : Nat) (cursor : Cursor) :
    (cursor.advanceBy count).text = cursor.text := by
  induction count generalizing cursor with
  | zero => rfl
  | succ count ih => rw [advanceBy, ih, advance_text]

@[simp] theorem advance_rest (cursor : Cursor) : cursor.advance.rest = cursor.rest.tail := by
  unfold advance
  split
  · rename_i ended
    simp [ended]
  · rename_i character rest following
    split <;> simp [following]

@[simp] theorem advanceBy_rest (count : Nat) (cursor : Cursor) :
    (cursor.advanceBy count).rest = cursor.rest.drop count := by
  induction count generalizing cursor with
  | zero => rfl
  | succ count ih => rw [advanceBy, ih, advance_rest, List.drop_tail]

theorem clone_eq (cursor : Cursor) : cursor.clone = cursor := by
  have behind : cursor.text.take cursor.position = cursor.consumed.reverse := by
    rw [position, ← List.length_reverse]
    exact List.take_left
  have ahead : cursor.text.drop cursor.position = cursor.rest := by
    rw [position, ← List.length_reverse]
    exact List.drop_left
  rw [clone, behind, ahead, List.reverse_reverse]

end Cursor

end MessageForms
