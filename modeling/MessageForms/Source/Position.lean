import MessageForms.Text.Basic

set_option autoImplicit false

/-! Places in a source text, and the two lines by which a message points at one of them. -/

namespace MessageForms

/-- A row and a column, both counted from zero. Only a line feed starts a new row. Positions that
a caller makes up may lie outside of every text, so neither number is bounded. -/
structure Position where
  row : Int
  column : Int
deriving DecidableEq, Inhabited

namespace Text

/-- The rows of a text. A line feed ends a row, and a carriage return right before it belongs to
the line end; any other carriage return is an ordinary character. -/
def rows : Text → List Text
  | [] => [[]]
  | character :: rest =>
      if character = '\n' then [] :: rows rest
      else if character = '\r' && rest.head? = some '\n' then rows rest
      else
        match rows rest with
        | [] => [[character]]
        | row :: others => (character :: row) :: others

/-- The row with the given number; rows outside of the text are empty. -/
def rowAt (source : Text) (row : Int) : Text :=
  if row < 0 then [] else (rows source)[row.toNat]?.getD []

end Text

/-- The row of a position, and below it a caret under the position's column. -/
def Position.preview (position : Position) (source : Text) : Text :=
  Text.rowAt source position.row ++
    '\n' :: (List.replicate position.column.toNat ' ' ++ ['^'])

end MessageForms
