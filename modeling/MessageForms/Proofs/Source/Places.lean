import MessageForms.Proofs.Source.Rows
import Mathlib.Data.List.Forall2

set_option autoImplicit false

/-! Cursors along a text and the rows that a preview is cut from. The row and the column of a cursor
are counted step by step, while the rows come from splitting the whole text; they agree at every
place that a cursor can get to, however the line breaks of the text are mixed. -/

namespace MessageForms.Cursor

/-! ### Sessions -/

/-- What can be asked of the cursors of a session, which are named by their numbers: to go on by one
character, or to be copied. -/
inductive Request where
  | read (index : Nat)
  | clone (index : Nat)

section Sessions

variable {α β : Type}

/-- The session behind a request, if reading and copying are done as given. A copy is put at the
end. -/
def perform (read copy : α → α) (session : List α) : Request → List α
  | .read index => session.modify index read
  | .clone index => session ++ (session[index]?.map copy).toList

def performAll (read copy : α → α) (requests : List Request) (session : List α) : List α :=
  requests.foldl (perform read copy) session

variable {related : α → β → Prop} {read copy : α → α} {read' copy' : β → β} {session : List α}
  {session' : List β}

theorem related_modify (reads : ∀ first second, related first second →
      related (read first) (read' second))
    (alike : List.Forall₂ related session session') (index : Nat) :
    List.Forall₂ related (session.modify index read) (session'.modify index read') := by
  induction alike generalizing index with
  | nil =>
      rw [List.modify_nil, List.modify_nil]
      exact .nil
  | cons first others ih =>
      cases index with
      | zero => exact .cons (reads _ _ first) others
      | succ index => exact .cons first (ih index)

theorem related_getElem? (copies : ∀ first second, related first second →
      related (copy first) (copy' second))
    (alike : List.Forall₂ related session session') (index : Nat) :
    List.Forall₂ related (session[index]?.map copy).toList (session'[index]?.map copy').toList := by
  induction alike generalizing index with
  | nil => exact .nil
  | cons first others ih =>
      cases index with
      | zero => exact .cons (copies _ _ first) .nil
      | succ index => exact ih index

variable
  (reads : ∀ first second, related first second → related (read first) (read' second))
  (copies : ∀ first second, related first second → related (copy first) (copy' second))

include reads copies

/-- What reading and copying keep true of each pair in two sessions, a request keeps true. -/
theorem related_perform (alike : List.Forall₂ related session session') (request : Request) :
    List.Forall₂ related (perform read copy session request)
      (perform read' copy' session' request) := by
  cases request with
  | read index => exact related_modify reads alike index
  | clone index => exact List.rel_append alike (related_getElem? copies alike index)

theorem related_performAll (alike : List.Forall₂ related session session')
    (requests : List Request) :
    List.Forall₂ related (performAll read copy requests session)
      (performAll read' copy' requests session') := by
  induction requests generalizing session session' with
  | nil => exact alike
  | cons request requests ih => exact ih (related_perform reads copies alike request)

end Sessions

/-! ### Places -/

/-- The cursor is behind the first `count` characters of the text. -/
def IsBehind (text : Text) (count : Nat) (cursor : Cursor) : Prop :=
  count ≤ text.length ∧ cursor = between (text.take count) (text.drop count)

theorem isBehind_startingAt {text : Text} {start : Nat} (within : start ≤ text.length) :
    IsBehind text start (startingAt text start) := by
  refine ⟨within, ?_⟩
  have steps := advanceBy_between [] (text.take start) (text.drop start)
  rw [List.take_append_drop, List.length_take_of_le within, List.nil_append] at steps
  exact steps

theorem IsBehind.advance {text : Text} {count : Nat} {cursor : Cursor}
    (isBehind : IsBehind text count cursor) :
    IsBehind text (min (count + 1) text.length) cursor.advance := by
  obtain ⟨within, rfl⟩ := isBehind
  refine ⟨Nat.min_le_right _ _, ?_⟩
  by_cases more : count < text.length
  · have next : text[count]? = some text[count] := List.getElem?_eq_getElem more
    rw [Nat.min_eq_left more, List.drop_eq_getElem_cons more, advance_between, List.take_add_one,
      next]
    rfl
  · have ended : count = text.length := Nat.le_antisymm within (Nat.le_of_not_lt more)
    rw [ended, Nat.min_eq_right (Nat.le_succ _), List.drop_length]
    rfl

theorem IsBehind.clone {text : Text} {count : Nat} {cursor : Cursor}
    (isBehind : IsBehind text count cursor) : IsBehind text count cursor.clone := by
  rw [cursor.clone_eq]
  exact isBehind

/-- The preview of the cursor's place is a row of the text and a caret. The row is there, and what
follows the cursor, unless it is a line break, stands above the caret; at the end of the text the
row ends there. -/
structure Previews (text : Text) (cursor : Cursor) (shown : Text) : Prop where
  inRange : 0 ≤ cursor.here.row ∧ cursor.here.row < ((Text.rows text).length : Nat)
  isLine : Text.IsLine text cursor.row shown
  unbroken : '\n' ∉ shown
  preview_eq : cursor.here.preview text =
    shown ++ '\n' :: (List.replicate cursor.column ' ' ++ ['^'])
  above : ∀ character more, cursor.rest = character :: more → character ≠ '\n' →
    (character = '\r' → more.head? ≠ some '\n') → shown[cursor.column]? = some character
  ended : cursor.rest = [] → shown.length = cursor.column

/-- The cursor is behind the first `count` characters of the text and has counted them right: the
row is the number of line feeds among them, and the column the number of characters behind the last
of these. Its place is previewed by the line that it is on. -/
structure Tracks (text : Text) (count : Nat) (cursor : Cursor) : Prop where
  text_eq : cursor.text = text
  within : count ≤ text.length
  position_eq : cursor.position = count
  rest_eq : cursor.rest = text.drop count
  row_eq : cursor.row = (text.take count).count '\n'
  column_eq : cursor.column = ((text.take count).reverse.takeWhile (· ≠ '\n')).length
  previews : ∃ shown, Previews text cursor shown

theorem previews_between (before rest : Text) :
    Previews (before ++ rest) (between before rest)
      (Text.rowAt (before ++ rest) (Position.after before).row) where
  inRange := ⟨Int.natCast_nonneg _, Text.row_lt_length_rows before rest⟩
  isLine := Text.isLine_rowAt before rest
  unbroken := by
    obtain ⟨front, more, -, -, -, unbroken, -⟩ := Text.isLine_rowAt before rest
    exact unbroken
  preview_eq := rfl
  above character more next ordinary unpaired := by
    have next : rest = character :: more := next
    subst next
    refine Text.getElem?_rowAt before ?_
    rintro _ _ ⟨⟩
    exact ⟨ordinary, unpaired⟩
  ended none := by
    have none : rest = [] := none
    rw [none, List.append_nil]
    exact Text.length_rowAt before

theorem IsBehind.tracks {text : Text} {count : Nat} {cursor : Cursor}
    (isBehind : IsBehind text count cursor) : Tracks text count cursor := by
  obtain ⟨within, rfl⟩ := isBehind
  have split : text.take count ++ text.drop count = text := List.take_append_drop count text
  have shown := previews_between (text.take count) (text.drop count)
  rw [split] at shown
  refine ⟨?_, within, ?_, rfl, rfl, rfl, _, shown⟩
  · rw [between_text, split]
  · exact (List.length_reverse).trans (List.length_take_of_le within)

/-- A cursor is put behind any number of characters of a text, and it and its copies are read from
in any order. Each of them is behind as many characters as were asked for and read, has counted its
row and its column as the text has it, and previews its place by the line that it is on. -/
theorem sessions_track_rows (text : Text) {start : Nat} (within : start ≤ text.length)
    (requests : List Request) :
    List.Forall₂ (Tracks text)
      (performAll (fun count => min (count + 1) text.length) id requests [start])
      (performAll Cursor.advance Cursor.clone requests [startingAt text start]) := by
  have placed : List.Forall₂ (IsBehind text) [start] [startingAt text start] :=
    .cons (isBehind_startingAt within) .nil
  have reached := related_performAll (fun _ _ isBehind => isBehind.advance)
    (fun _ _ isBehind => isBehind.clone) placed requests
  exact reached.imp fun _ _ isBehind => isBehind.tracks

/-- A copy goes on from the line break, and the first cursor stays in front of it. -/
theorem sessions_track_rows_break :
    1 ≤ ['a', '\r', '\n', '\r', 'b'].length ∧
      List.Forall₂ (Tracks ['a', '\r', '\n', '\r', 'b']) [1, 4]
        [startingAt ['a', '\r', '\n', '\r', 'b'] 1,
          { consumed := ['\r', '\n', '\r', 'a'], rest := ['b'], row := 1, column := 1 }] :=
  ⟨by decide, sessions_track_rows ['a', '\r', '\n', '\r', 'b'] (by decide)
    [.clone 0, .read 1, .read 1, .read 1]⟩

end MessageForms.Cursor
