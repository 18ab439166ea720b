import MessageForms.Proofs.Source.Tracking
import MessageForms.Proofs.Text.Class

set_option autoImplicit false

/-! Lines of a text, said without splitting it: a line starts at the front of the text or behind a
line feed, holds none itself, and reaches to the next line break or to the end. The row that a
preview shows is the line of its number, and what stands at a place of the text stands in that row
at the column of the place. -/

namespace MessageForms.Text

/-- What can follow a line: nothing, or a line break. A carriage return right before a line feed is
part of the break, so a line in front of a mere line feed ends with none. -/
inductive EndsLine : Text → Text → Prop where
  | ended (line : Text) : EndsLine line []
  | feed {line : Text} (bare : line.getLast? ≠ some '\r') (more : Text) :
      EndsLine line ('\n' :: more)
  | returnFeed (line more : Text) : EndsLine line ('\r' :: '\n' :: more)

/-- Nothing stands behind the last line feed. -/
def IsComplete (front : Text) : Prop :=
  ∀ last ∈ front.getLast?, last = '\n'

/-- The line behind as many line feeds of the text as its number says. -/
def IsLine (source : Text) (number : Nat) (line : Text) : Prop :=
  ∃ front more, source = front ++ (line ++ more) ∧ IsComplete front ∧
    front.count '\n' = number ∧ '\n' ∉ line ∧ EndsLine line more

/-! ### The first row -/

def firstRow (source : Text) : Text :=
  (rows source).head?.getD []

theorem rows_cons {character : Char} {rest : Text} (ordinary : character ≠ '\n')
    (unpaired : character = '\r' → rest.head? ≠ some '\n') :
    rows (character :: rest) = (character :: firstRow rest) :: (rows rest).tail := by
  have alone : (decide (character = '\r') && decide (rest.head? = some '\n')) = false := by
    rw [Bool.and_eq_false_imp, decide_eq_true_eq, decide_eq_false_iff_not]
    exact unpaired
  rw [rows, if_neg ordinary, alone, if_neg Bool.false_ne_true, firstRow]
  cases rows rest with
  | nil => rfl
  | cons row others => rfl

theorem rows_feed (rest : Text) : rows ('\n' :: rest) = [] :: rows rest :=
  if_pos rfl

theorem rows_returnFeed (rest : Text) : rows ('\r' :: '\n' :: rest) = [] :: rows rest := by
  rw [rows, if_neg (by decide), if_pos (by rfl), rows_feed]

theorem firstRow_cons {character : Char} {rest : Text} (ordinary : character ≠ '\n')
    (unpaired : character = '\r' → rest.head? ≠ some '\n') :
    firstRow (character :: rest) = character :: firstRow rest := by
  rw [firstRow, rows_cons ordinary unpaired]
  rfl

theorem rows_induction {motive : Text → Prop} (nil : motive [])
    (feed : ∀ rest, motive rest → motive ('\n' :: rest))
    (returnFeed : ∀ rest, motive rest → motive ('\r' :: '\n' :: rest))
    (cons : ∀ character rest, character ≠ '\n' → (character = '\r' → rest.head? ≠ some '\n') →
      motive rest → motive (character :: rest)) (source : Text) : motive source := by
  match source with
  | [] => exact nil
  | character :: rest =>
      by_cases ends : character = '\n'
      · subst ends
        exact feed rest (rows_induction nil feed returnFeed cons rest)
      · by_cases paired : character = '\r' ∧ rest.head? = some '\n'
        · obtain ⟨rfl, next⟩ := paired
          obtain ⟨more, rfl⟩ := List.head?_eq_some_iff.mp next
          exact returnFeed more (rows_induction nil feed returnFeed cons more)
        · exact cons character rest ends (fun returns next => paired ⟨returns, next⟩)
            (rows_induction nil feed returnFeed cons rest)
termination_by source.length

theorem exists_endsLine (source : Text) :
    ∃ more, source = firstRow source ++ more ∧ '\n' ∉ firstRow source ∧
      EndsLine (firstRow source) more := by
  induction source using rows_induction with
  | nil => exact ⟨[], rfl, List.not_mem_nil, .ended []⟩
  | feed rest ih =>
      rw [firstRow, rows_feed]
      exact ⟨_, rfl, List.not_mem_nil, @EndsLine.feed [] (by decide) rest⟩
  | returnFeed rest ih =>
      rw [firstRow, rows_returnFeed]
      exact ⟨_, rfl, List.not_mem_nil, .returnFeed [] rest⟩
  | cons character rest ordinary unpaired ih =>
      obtain ⟨more, split, unbroken, ends⟩ := ih
      rw [firstRow_cons ordinary unpaired]
      refine ⟨more, congrArg (List.cons character) split, ?_, ?_⟩
      · rw [List.mem_cons, not_or]
        exact ⟨Ne.symm ordinary, unbroken⟩
      · cases ends with
        | ended => exact .ended _
        | returnFeed => exact .returnFeed _ _
        | feed bare =>
            apply EndsLine.feed
            cases empty : firstRow rest with
            | nil =>
                rw [empty, List.nil_append] at split
                intro returns
                exact unpaired (Option.some.inj returns) (congrArg List.head? split)
            | cons first others =>
                rw [List.getLast?_cons_cons, ← empty]
                exact bare

theorem firstRow_append {run rest : Text} (unbroken : '\n' ∉ run)
    (same : rest.head? ≠ some '\n') : firstRow (run ++ rest) = run ++ firstRow rest := by
  induction run with
  | nil => rfl
  | cons character run ih =>
      rw [List.mem_cons, not_or] at unbroken
      have unpaired : character = '\r' → (run ++ rest).head? ≠ some '\n' := by
        intro _ next
        cases run with
        | nil => exact same next
        | cons first run =>
            cases next
            exact unbroken.2 List.mem_cons_self
      rw [List.cons_append, firstRow_cons (Ne.symm unbroken.1) unpaired, ih unbroken.2]
      rfl

/-! ### The row of a place -/

theorem IsComplete.of_cons {character : Char} {front : Text}
    (complete : IsComplete (character :: front)) : IsComplete front := by
  intro last final
  apply complete
  rw [Option.mem_def] at final ⊢
  rw [List.getLast?_cons, final]
  rfl

theorem IsComplete.feed_mem {first : Char} {front : Text}
    (complete : IsComplete (first :: front)) : '\n' ∈ first :: front := by
  have final := List.getLast?_eq_some_getLast (List.cons_ne_nil first front)
  rw [← complete _ final]
  exact List.getLast_mem _

theorem getElem?_rows_append {front : Text} (complete : IsComplete front) (rest : Text) :
    (rows (front ++ rest))[front.count '\n']? = some (firstRow rest) := by
  induction front using rows_induction with
  | nil =>
      rw [List.nil_append, firstRow]
      induction rest using rows_induction with
      | nil => rfl
      | feed rest => rw [rows_feed]; rfl
      | returnFeed rest => rw [rows_returnFeed]; rfl
      | cons character rest ordinary unpaired => rw [rows_cons ordinary unpaired]; rfl
  | feed front ih =>
      rw [List.cons_append, rows_feed, List.count_cons_self, List.getElem?_cons_succ]
      exact ih complete.of_cons
  | returnFeed front ih =>
      rw [List.cons_append, List.cons_append, rows_returnFeed, List.count_cons_of_ne (by decide),
        List.count_cons_self, List.getElem?_cons_succ]
      exact ih complete.of_cons.of_cons
  | cons character front ordinary unpaired ih =>
      cases front with
      | nil => exact (ordinary (complete character rfl)).elim
      | cons first front =>
          obtain ⟨number, counted⟩ : ∃ number, (first :: front).count '\n' = number + 1 :=
            Nat.exists_eq_add_one.mpr (List.count_pos_iff.mpr complete.of_cons.feed_mem)
          have below := ih complete.of_cons
          rw [counted] at below
          have row : rows (character :: (first :: front ++ rest)) = _ := rows_cons ordinary unpaired
          rw [List.count_cons_of_ne ordinary, counted, List.cons_append, row,
            List.getElem?_cons_succ, List.getElem?_tail]
          exact below

/-- A text is its complete lines and an unfinished one, which the column counts. -/
theorem exists_unfinished (before : Text) :
    ∃ front run, before = front ++ run ∧ IsComplete front ∧ '\n' ∉ run ∧
      front.count '\n' = before.count '\n' ∧
      (Position.after before).column = (run.length : Nat) := by
  let backwards : Text := before.reverse
  have unbroken : '\n' ∉ (backwards.takeWhile (· ≠ '\n')).reverse := by
    rw [List.mem_reverse]
    exact fun among => of_decide_eq_true (mem_takeWhile '\n' among) rfl
  have split : before = (backwards.dropWhile (· ≠ '\n')).reverse ++
      (backwards.takeWhile (· ≠ '\n')).reverse := by
    rw [← List.reverse_append, List.takeWhile_append_dropWhile, List.reverse_reverse]
  refine ⟨_, _, split, ?_, unbroken, ?_, ?_⟩
  · intro last final
    rw [List.getLast?_reverse] at final
    have stops := List.head?_dropWhile_not (· ≠ '\n') backwards
    rw [Option.mem_def.mp final] at stops
    exact Decidable.of_not_not (of_decide_eq_false stops)
  · have counted := congrArg (List.count '\n') split
    rw [List.count_append, List.count_eq_zero.mpr unbroken, Nat.add_zero] at counted
    exact counted.symm
  · rw [List.length_reverse]
    rfl

theorem rowAt_after (before rest : Text) :
    rowAt (before ++ rest) (Position.after before).row =
      (rows (before ++ rest))[before.count '\n']?.getD [] := by
  have below : ¬ (Position.after before).row < 0 := Int.not_lt.mpr (Int.natCast_nonneg _)
  rw [rowAt, if_neg below]
  rfl

theorem isLine_rowAt (before rest : Text) :
    IsLine (before ++ rest) (before.count '\n')
      (rowAt (before ++ rest) (Position.after before).row) := by
  obtain ⟨front, run, rfl, complete, -, counted, -⟩ := exists_unfinished before
  obtain ⟨more, split, unbroken, ends⟩ := exists_endsLine (run ++ rest)
  rw [rowAt_after, ← counted, List.append_assoc, getElem?_rows_append complete, Option.getD_some]
  exact ⟨front, more, congrArg (front ++ ·) split, complete, rfl, unbroken, ends⟩

/-- The row of a place starts with as many characters as the column counts, unless a line break
behind the place takes a carriage return from them. -/
theorem exists_row (before rest : Text) :
    ∃ run : Text, '\n' ∉ run ∧ (Position.after before).column = (run.length : Nat) ∧
      (rows (before ++ rest))[before.count '\n']? = some (firstRow (run ++ rest)) := by
  obtain ⟨front, run, rfl, complete, unbroken, counted, column⟩ := exists_unfinished before
  refine ⟨run, unbroken, column, ?_⟩
  rw [← counted, List.append_assoc, getElem?_rows_append complete]

theorem row_lt_length_rows (before rest : Text) :
    (Position.after before).row < ((rows (before ++ rest)).length : Nat) := by
  obtain ⟨run, -, -, found⟩ := exists_row before rest
  exact Int.ofNat_lt.mpr (List.getElem?_eq_some_iff.mp found).1

/-- A character that is no part of a line break stands in the row of its place at the column of its
place, and at the end of the text the row ends there. -/
theorem getElem?_rowAt (before : Text) {rest : Text}
    (shown : ∀ character more, rest = character :: more →
      character ≠ '\n' ∧ (character = '\r' → more.head? ≠ some '\n')) :
    (rowAt (before ++ rest) (Position.after before).row)[(Position.after before).column.toNat]? =
      rest.head? := by
  obtain ⟨run, unbroken, column, found⟩ := exists_row before rest
  have same : rest.head? ≠ some '\n' := by
    intro next
    obtain ⟨more, rfl⟩ := List.head?_eq_some_iff.mp next
    exact (shown _ _ rfl).1 rfl
  rw [rowAt_after, found, Option.getD_some, column, Int.toNat_natCast,
    firstRow_append unbroken same, List.getElem?_append_right (Nat.le_refl _), Nat.sub_self]
  cases rest with
  | nil => rfl
  | cons character more =>
      rw [firstRow_cons (shown _ _ rfl).1 (shown _ _ rfl).2]
      rfl

theorem length_rowAt (source : Text) :
    (rowAt source (Position.after source).row).length = (Position.after source).column.toNat := by
  obtain ⟨run, unbroken, column, found⟩ := exists_row source []
  have row := rowAt_after source []
  rw [found, firstRow_append unbroken (by decide), List.append_nil] at row
  rw [row, column, Option.getD_some, Int.toNat_natCast, List.length_append]
  rfl

end MessageForms.Text
