import MessageForms.Proofs.Token.Cache

set_option autoImplicit false

/-! What a stream can be asked for, and what it answers. A cursor over the tokens of the text says
it all: the answer to an operation, and the place at which the operation leaves the stream, follow
from the tokens and from the number of them that was read. How far the stream has scanned makes a
difference to nothing but the checkpoints that it can go to. -/

namespace MessageForms.TokenStream

/-- Reads the given number of times; the result lists what was read. -/
def readEach : Nat → Reading (List (Option Token))
  | 0 => return []
  | count + 1 => do
      let token ← read
      let others ← readEach count
      return token :: others

inductive Operation where
  | peek
  | read
  | peekKind
  | save
  | restore (checkpoint : Nat)
  | savingPositionIf (goesBack : List (Option Token) → Bool) (count : Nat)
  | nextPosition
  | nextPreview
  | problemHere (complaint : Complaint)
  | expectKind (kind : TokenKind) (complaint : Complaint)

inductive Answer where
  | done
  | token (found : Option Token)
  | tokens (found : List (Option Token))
  | kind (found : Option TokenKind)
  | checkpoint (position : Nat)
  | position (found : Position)
  | preview (found : Text)
  | problem (found : Problem)
  | copy (index : Nat)

def Operation.run : Operation → Reading Answer
  | peek => return .token (← TokenStream.peek)
  | read => return .token (← TokenStream.read)
  | peekKind => return .kind (← TokenStream.peekKind)
  | save => return .checkpoint (← TokenStream.save)
  | restore checkpoint => do
      TokenStream.restore checkpoint
      return .done
  | savingPositionIf goesBack count =>
      return .tokens (← TokenStream.savingPositionIf goesBack (readEach count))
  | nextPosition => return .position (← TokenStream.nextPosition)
  | nextPreview => return .preview (← TokenStream.nextPreview)
  | problemHere complaint => return .problem (← TokenStream.problemHere complaint)
  | expectKind kind complaint => do
      TokenStream.expectKind kind complaint
      return .done

section Promises

variable (text : Text) (all : List Token) (ending : Option Fault) (position : Nat)

/-- What a cursor over the tokens says is next. -/
def promised : Except Fault (Option Token) :=
  match all[position]? with
  | some token => .ok (some token)
  | none =>
      match ending with
      | some fault => .error fault
      | none => .ok none

def promisedKind : Except Fault (Option TokenKind) := do
  return (← promised all ending position).map Token.kind

def promisedPosition : Except Fault Position := do
  return ((← promised all ending position).map Token.position).getD (.after text)

def promisedPreview : Except Fault Text := do
  return (← promisedPosition text all ending position).preview text

def promisedProblem (complaint : Complaint) : Except Fault Problem := do
  let place ← promisedPosition text all ending position
  let preview ← promisedPreview text all ending position
  return { complaint, position := some place, preview := some preview, hint := none }

def promisedCheck (kind : TokenKind) (complaint : Complaint) : Except Fault Unit := do
  if (← promisedKind all ending position) ≠ some kind then
    throw (.problem (← promisedProblem text all ending position complaint))

/-- What is next each time, as a cursor passes over so many tokens, or the fault that it meets. -/
def promisedEach : Nat → Nat → Except Fault (List (Option Token))
  | _, 0 => .ok []
  | position, count + 1 => do
      let token ← promised all ending position
      (promisedEach (position + 1) count).map fun others => token :: others

/-- The answer of a cursor with so many tokens behind it. A checkpoint is taken to be one that the
stream can go to. -/
def Operation.answer : Operation → Except Fault Answer
  | peek | read => (promised all ending position).map .token
  | peekKind => (promisedKind all ending position).map .kind
  | save => .ok (.checkpoint position)
  | restore _ => .ok .done
  | savingPositionIf _ count => (promisedEach all ending position count).map .tokens
  | nextPosition => (promisedPosition text all ending position).map .position
  | nextPreview => (promisedPreview text all ending position).map .preview
  | problemHere complaint => (promisedProblem text all ending position complaint).map .problem
  | expectKind kind complaint =>
      (promisedCheck text all ending position kind complaint).map fun _ => .done

/-- How many tokens are behind the cursor afterwards. -/
def Operation.place : Operation → Nat
  | read => min (position + 1) all.length
  | restore checkpoint => checkpoint
  | savingPositionIf goesBack count =>
      if (promisedEach all ending position count).toOption.any goesBack then position
      else min (position + count) all.length
  | peek | peekKind | save | nextPosition | nextPreview | problemHere _ | expectKind _ _ =>
      position

end Promises

/-- A stream serves an operation as a cursor over all the tokens does: its answer and its place
are those of the cursor. Only going to a checkpoint depends on what was scanned. -/
structure Operation.Serves (text : Text) (all : List Token) (ending : Option Fault)
    (operation : Operation) (stream : TokenStream) (outcome : Except Fault Answer)
    (after : TokenStream) : Prop where
  grown : stream.scanned <+: after.scanned
  answered : (∀ checkpoint, operation = .restore checkpoint →
      checkpoint ≤ stream.scanned.length) →
    outcome = operation.answer text all ending stream.position ∧
      after.position = operation.place all ending stream.position
  peek : operation = .peek →
    outcome = (promised all ending stream.position).map .token ∧
      after.position = stream.position ∧
      after.scanned.length ≤ stream.scanned.length + 1
  read : operation = .read →
    outcome = (promised all ending stream.position).map .token ∧
      after.position = min (stream.position + 1) all.length ∧
      after.scanned.length ≤ stream.scanned.length + 1
  ahead : ∀ checkpoint, operation = .restore checkpoint →
    (outcome = .error (.checkpointAhead checkpoint) ↔ stream.scanned.length < checkpoint) ∧
      (stream.scanned.length < checkpoint → after = stream)
  back : ∀ checkpoint, operation = .restore checkpoint → checkpoint ≤ stream.scanned.length →
    outcome = .ok .done ∧ after.position = checkpoint ∧ after.scanned = stream.scanned
  undone : ∀ goesBack count found, operation = .savingPositionIf goesBack count →
    outcome = .ok (.tokens found) → goesBack found = true → after.position = stream.position

/-! ### Single streams -/

section Single

variable {text : Text} {all : List Token} {ending : Option Fault} {stream : TokenStream}

theorem keeps_readEach (count : Nat) : Keeps text all ending (readEach count) := by
  induction count with
  | zero => exact .pure []
  | succ count ih => exact keeps_read.bind fun _ => ih.bind fun _ => .pure _

theorem keeps_run (operation : Operation) : Keeps text all ending operation.run := by
  cases operation with
  | peek => exact keeps_peek.bind fun _ => .pure _
  | read => exact keeps_read.bind fun _ => .pure _
  | peekKind => exact keeps_peekKind.bind fun _ => .pure _
  | save => exact keeps_save.bind fun _ => .pure _
  | restore checkpoint => exact (keeps_restore checkpoint).bind fun _ => .pure _
  | savingPositionIf goesBack count =>
      exact (keeps_savingPositionIf goesBack (keeps_readEach count)).bind fun _ => .pure _
  | nextPosition => exact keeps_nextPosition.bind fun _ => .pure _
  | nextPreview => exact keeps_nextPreview.bind fun _ => .pure _
  | problemHere complaint => exact (keeps_problemHere complaint).bind fun _ => .pure _
  | expectKind kind complaint =>
      exact (keeps_expectKind kind complaint).bind fun _ => .pure _

theorem Caches.scanned_front (caches : Caches text all ending stream) : stream.scanned <+: all := by
  rcases caches with ⟨unscanned, -, same⟩
  exact ⟨unscanned, same⟩

theorem Caches.position_le (caches : Caches text all ending stream) :
    stream.position ≤ all.length :=
  Nat.le_trans (TokenStream.position_le stream) caches.scanned_front.length_le

theorem Caches.outcome_peek (caches : Caches text all ending stream) :
    outcome (TokenStream.peek stream) = promised all ending stream.position ∧
      (left (TokenStream.peek stream)).position = stream.position := by
  unfold promised
  cases caches.peeked with
  | found next done behind scanned again =>
      rw [next, done]
      exact ⟨rfl, congrArg List.length behind⟩
  | ended next done unscanned again =>
      rw [next, done]
      exact ⟨rfl, rfl⟩
  | failed next done unscanned again =>
      rw [next, done]
      exact ⟨rfl, rfl⟩

theorem scanned_length_peek (stream : TokenStream) :
    (left (TokenStream.peek stream)).scanned.length ≤ stream.scanned.length + 1 := by
  obtain ⟨extra, few, grown⟩ := scanned_peek stream
  rw [grown, List.length_append]
  exact Nat.add_le_add_left few _

theorem Caches.outcome_read (caches : Caches text all ending stream) :
    outcome (TokenStream.read stream) = promised all ending stream.position ∧
      (left (TokenStream.read stream)).position = min (stream.position + 1) all.length := by
  have within := caches.position_le
  rw [← caches.outcome_peek.1, read_apply]
  cases caches.peeked with
  | @found _ token after ahead next done behind scanned again =>
      have more : stream.position < all.length := (List.getElem?_eq_some_iff.mp next).1
      have same : after.position = stream.position := congrArg List.length behind
      rw [done]
      refine ⟨rfl, ?_⟩
      rw [left, advance, scanned]
      change after.position + 1 = _
      omega
  | ended next done unscanned again =>
      have last : all.length ≤ stream.position := List.getElem?_eq_none_iff.mp next
      rw [done]
      refine ⟨rfl, ?_⟩
      rw [left, advance, unscanned]
      change stream.position = _
      omega
  | failed next done unscanned again =>
      have last : all.length ≤ stream.position := List.getElem?_eq_none_iff.mp next
      rw [done]
      refine ⟨rfl, ?_⟩
      change stream.position = _
      omega

theorem Caches.text_eq (caches : Caches text all ending stream) : stream.cursor.text = text := by
  rcases caches with ⟨unscanned, yields, -⟩
  exact yields.text_eq

end Single

/-! ### Answers -/

section Answering

variable (text : Text) (all : List Token) (ending : Option Fault)

/-- A stream that has read so many tokens answers the reader like this, and has read as many as
`place` says afterwards. -/
def Answers {α : Type} (reader : Reading α) (position : Nat) (answer : Except Fault α)
    (place : Nat) : Prop :=
  ∀ stream, Caches text all ending stream → stream.position = position →
    outcome (reader stream) = answer ∧ (left (reader stream)).position = place

variable {text all ending}

namespace Answers

variable {α β : Type} {position place : Nat}

theorem pure (value : α) (position : Nat) :
    Answers text all ending (Pure.pure value : Reading α) position (.ok value) position :=
  fun _ _ here => ⟨rfl, here⟩

theorem throw (fault : Fault) (position : Nat) :
    Answers text all ending (throw fault : Reading α) position (.error fault) position :=
  fun _ _ here => ⟨rfl, here⟩

theorem map {reader : Reading α} {answer : Except Fault α}
    (answers : Answers text all ending reader position answer place) (form : α → β) :
    Answers text all ending (do return form (← reader)) position (answer.map form) place := by
  intro stream caches here
  rw [outcome_bind_pure, left_bind_pure, (answers stream caches here).1]
  exact ⟨rfl, (answers stream caches here).2⟩

theorem bind {first : Reading α} {next : α → Reading β} {answer : Except Fault α}
    {final : α → Except Fault β} {middle : Nat} (keeps : Keeps text all ending first)
    (answers : Answers text all ending first position answer middle)
    (failed : ∀ fault, answer = .error fault → place = middle)
    (others : ∀ value, answer = .ok value →
      Answers text all ending (next value) middle (final value) place) :
    Answers text all ending (first >>= next) position (answer >>= final) place := by
  intro stream caches here
  obtain ⟨given, moved⟩ := answers stream caches here
  have kept := keeps stream caches
  rw [bind_apply]
  cases done : first stream with
  | error fault after =>
      rw [done] at given moved
      subst given
      exact ⟨rfl, moved.trans (failed fault rfl).symm⟩
  | ok value after =>
      rw [done] at given moved kept
      subst given
      exact others value rfl after kept.2 moved

end Answers

theorem answers_peek (position : Nat) :
    Answers text all ending peek position (promised all ending position) position := by
  intro stream caches here
  subst here
  exact caches.outcome_peek

theorem answers_read (position : Nat) :
    Answers text all ending read position (promised all ending position)
      (min (position + 1) all.length) := by
  intro stream caches here
  subst here
  exact caches.outcome_read

theorem answers_peekKind (position : Nat) :
    Answers text all ending peekKind position (promisedKind all ending position) position :=
  (answers_peek position).bind keeps_peek (fun _ _ => rfl) fun _ _ => .pure _ position

/-- At the end of the tokens it is the cursor in the text that says where the stream is. -/
theorem answers_nextPosition (position : Nat) :
    Answers text all ending nextPosition position (promisedPosition text all ending position)
      position := by
  intro stream caches here
  subst here
  rw [nextPosition, bind_apply, promisedPosition, ← caches.outcome_peek.1]
  cases caches.peeked with
  | found next done behind scanned again =>
      rw [done]
      exact ⟨rfl, congrArg List.length behind⟩
  | ended next done unscanned again =>
      rw [done]
      exact ⟨rfl, rfl⟩
  | failed next done unscanned again =>
      rw [done]
      exact ⟨rfl, rfl⟩

theorem answers_nextPreview (position : Nat) :
    Answers text all ending nextPreview position (promisedPreview text all ending position)
      position := by
  refine (answers_nextPosition position).bind keeps_nextPosition (fun _ _ => rfl) ?_
  intro place _ stream caches here
  rw [← caches.text_eq]
  exact ⟨rfl, here⟩

theorem answers_problemHere (complaint : Complaint) (position : Nat) :
    Answers text all ending (problemHere complaint) position
      (promisedProblem text all ending position complaint) position :=
  (answers_nextPosition position).bind keeps_nextPosition (fun _ _ => rfl) fun _ _ =>
    (answers_nextPreview position).bind keeps_nextPreview (fun _ _ => rfl) fun _ _ =>
      .pure _ position

theorem answers_expectKind (kind : TokenKind) (complaint : Complaint) (position : Nat) :
    Answers text all ending (expectKind kind complaint) position
      (promisedCheck text all ending position kind complaint) position := by
  refine (answers_peekKind position).bind keeps_peekKind (fun _ _ => rfl) ?_
  intro found _
  by_cases other : found ≠ some kind
  · rw [if_pos other, if_pos other]
    exact (answers_problemHere complaint position).bind (keeps_problemHere complaint)
      (fun _ _ => rfl) fun _ _ => .throw _ position
  · rw [if_neg other, if_neg other]
    exact .pure () position

/-- Behind the last token there is always the same to be read, so the cursor may as well be thought
to go on. -/
theorem promised_min (position : Nat) :
    promised all ending (min position all.length) = promised all ending position := by
  by_cases within : position ≤ all.length
  · rw [Nat.min_eq_left within]
  · rw [Nat.min_eq_right (Nat.le_of_not_le within)]
    unfold promised
    rw [List.getElem?_eq_none (Nat.le_refl all.length),
      List.getElem?_eq_none (Nat.le_of_not_le within)]

theorem length_le_of_promised_error {position : Nat} {fault : Fault}
    (promises : promised all ending position = .error fault) : all.length ≤ position := by
  by_cases within : position < all.length
  · unfold promised at promises
    rw [List.getElem?_eq_getElem within] at promises
    cases promises
  · omega

theorem answers_readEach (position count : Nat) :
    Answers text all ending (readEach count) (min position all.length)
      (promisedEach all ending position count) (min (position + count) all.length) := by
  induction count generalizing position with
  | zero => exact .pure [] _
  | succ count ih =>
      have first := @answers_read text all ending (min position all.length)
      have next : min (min position all.length + 1) all.length =
          min (position + 1) all.length := by omega
      rw [promised_min, next] at first
      refine first.bind keeps_read ?_ ?_
      · intro fault promises
        have behind := length_le_of_promised_error promises
        omega
      · intro token _
        have others := (ih (position + 1)).map fun others => token :: others
        rw [Nat.add_right_comm] at others
        exact others

theorem Answers.savingPositionIf {α : Type} (goesBack : α → Bool) {body : Reading α}
    {answer : Except Fault α} {position place : Nat} (keeps : Keeps text all ending body)
    (answers : Answers text all ending body position answer place) :
    Answers text all ending (savingPositionIf goesBack body) position answer
      (if answer.toOption.any goesBack then position else place) := by
  intro stream caches here
  obtain ⟨given, moved⟩ := answers stream caches here
  have kept := keeps stream caches
  subst here
  rw [savingPositionIf_apply, bind_apply]
  cases done : body stream with
  | error fault after =>
      rw [done] at given moved
      subst given
      exact ⟨rfl, moved⟩
  | ok found after =>
      rw [done] at given moved kept
      subst given
      by_cases back : goesBack found = true
      · have within : stream.position ≤ after.scanned.length :=
          Nat.le_trans (position_le stream) kept.1.length_le
        simp only [if_pos back]
        rw [bind_apply, restore_of_le within]
        exact ⟨rfl, (position_moveTo_of_le within).trans (if_pos back).symm⟩
      · simp only [if_neg back]
        exact ⟨rfl, moved.trans (if_neg back).symm⟩

/-- The checkpoint apart, the operation only depends on where the stream is. -/
theorem answers_run {operation : Operation} {position : Nat} (within : position ≤ all.length)
    (still : ∀ checkpoint, operation ≠ .restore checkpoint) :
    Answers text all ending operation.run position (operation.answer text all ending position)
      (operation.place all ending position) := by
  cases operation with
  | peek => exact (answers_peek position).map Answer.token
  | read => exact (answers_read position).map Answer.token
  | peekKind => exact (answers_peekKind position).map Answer.kind
  | save =>
      intro stream _ here
      subst here
      exact ⟨rfl, rfl⟩
  | restore checkpoint => exact (still checkpoint rfl).elim
  | savingPositionIf goesBack count =>
      have reads := @answers_readEach text all ending position count
      rw [Nat.min_eq_left within] at reads
      exact (reads.savingPositionIf goesBack (keeps_readEach count)).map Answer.tokens
  | nextPosition => exact (answers_nextPosition position).map Answer.position
  | nextPreview => exact (answers_nextPreview position).map Answer.preview
  | problemHere complaint => exact (answers_problemHere complaint position).map Answer.problem
  | expectKind kind complaint =>
      exact (answers_expectKind kind complaint position).map fun _ => Answer.done

end Answering

/-! ### Serving -/

section Serving

variable {text : Text} {all : List Token} {ending : Option Fault} {stream : TokenStream}

theorem Caches.grown_run (caches : Caches text all ending stream) (operation : Operation) :
    stream.scanned <+: (left (operation.run stream)).scanned := by
  have kept := keeps_run operation stream caches
  cases done : operation.run stream with
  | error fault after =>
      rw [done] at kept
      exact kept.1
  | ok answer after =>
      rw [done] at kept
      exact kept.1

theorem Caches.outcome_run (caches : Caches text all ending stream) (operation : Operation)
    (still : ∀ checkpoint, operation ≠ .restore checkpoint) :
    outcome (operation.run stream) = operation.answer text all ending stream.position ∧
      (left (operation.run stream)).position = operation.place all ending stream.position :=
  answers_run caches.position_le still stream caches rfl

theorem Caches.serves (caches : Caches text all ending stream) (operation : Operation) :
    operation.Serves text all ending stream (outcome (operation.run stream))
      (left (operation.run stream)) where
  grown := caches.grown_run operation
  answered := by
    intro within
    by_cases restores : ∃ checkpoint, operation = .restore checkpoint
    · obtain ⟨checkpoint, rfl⟩ := restores
      rw [Operation.run, bind_apply, restore_of_le (within checkpoint rfl)]
      exact ⟨rfl, position_moveTo_of_le (within checkpoint rfl)⟩
    · exact caches.outcome_run operation fun checkpoint same => restores ⟨checkpoint, same⟩
  peek := by
    intro same
    subst same
    have answers := caches.outcome_run .peek nofun
    refine ⟨answers.1, answers.2, ?_⟩
    rw [Operation.run, left_bind_pure]
    exact scanned_length_peek stream
  read := by
    intro same
    subst same
    have answers := caches.outcome_run .read nofun
    refine ⟨answers.1, answers.2, ?_⟩
    rw [Operation.run, left_bind_pure, scanned_read]
    exact scanned_length_peek stream
  ahead := by
    intro checkpoint same
    subst same
    rw [Operation.run, bind_apply, restore_apply]
    by_cases beyond : stream.scanned.length < checkpoint
    · rw [if_pos beyond]
      exact ⟨⟨fun _ => beyond, fun _ => rfl⟩, fun _ => rfl⟩
    · rw [if_neg beyond]
      refine ⟨⟨fun impossible => ?_, fun beyond' => (beyond beyond').elim⟩,
        fun beyond' => (beyond beyond').elim⟩
      cases impossible
  back := by
    intro checkpoint same within
    subst same
    rw [Operation.run, bind_apply, restore_of_le within]
    exact ⟨rfl, position_moveTo_of_le within, scanned_moveTo checkpoint stream⟩
  undone := by
    intro goesBack count found same given back
    subst same
    have answers := caches.outcome_run (.savingPositionIf goesBack count) nofun
    rw [given, Operation.answer, Operation.place] at answers
    rw [answers.2]
    cases each : promisedEach all ending stream.position count with
    | error fault =>
        rw [each] at answers
        cases answers.1
    | ok result =>
        rw [each] at answers
        cases answers.1
        exact if_pos back

end Serving

end MessageForms.TokenStream
