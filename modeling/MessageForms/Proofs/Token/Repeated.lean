import MessageForms.Proofs.Token.Onward
import MessageForms.Proofs.Token.Operation

set_option autoImplicit false

/-! Asking again where no token could be had. The end of the text is met again each time, and so is a
character that no token starts with. A string without an end is met once: looking for its end passes
over the rest of the text, and from then on the text seems to have ended there. This is said of every
stream, also of one that no text has led to. -/

namespace MessageForms

/-! ### One scan after another -/

namespace Cursor

theorem readWhile_of_refused {accepts : Char → Bool} {cursor : Cursor}
    (refused : ∀ character ∈ cursor.rest.head?, accepts character = false) :
    (cursor.readWhile accepts).2 = cursor := by
  have empty : cursor.rest.takeWhile accepts = [] := by
    cases following : cursor.rest with
    | nil => rfl
    | cons character others =>
        rw [following] at refused
        have stops := refused character rfl
        rw [List.takeWhile_cons_of_neg]
        rw [stops]
        exact Bool.false_ne_true
  rw [readWhile, empty]
  rfl

theorem readWhile_again (accepts : Char → Bool) (cursor : Cursor) :
    ((cursor.readWhile accepts).2.readWhile accepts).2 = (cursor.readWhile accepts).2 := by
  apply readWhile_of_refused
  rw [rest_readWhile]
  exact Text.refused_head?_dropWhile accepts cursor.rest

end Cursor

namespace Token

/-- No token was found: the text has ended, or a fault has ended the scan. -/
def ended {σ : Type} : Option Fault → σ → EStateM.Result Fault σ (Option Token)
  | none, state => .ok none state
  | some fault, state => .error fault state

/-- What ends the next scan, behind one that ended like this. A string without an end is gone. -/
def remaining (ending : Option Fault) : Option Fault :=
  ending.filter fun fault => !fault.isUnterminated

/-- There is no token at the cursor, and the scan that finds this out stays where it is. -/
def Rests (ending : Option Fault) (cursor : Cursor) : Prop :=
  next cursor = ended ending cursor

theorem rests_of_rest_nil {cursor : Cursor} (atEnd : cursor.rest = []) : Rests none cursor := by
  have start : (cursor.readWhile Text.isBlank).2 = cursor := by
    apply Cursor.readWhile_of_refused
    rw [atEnd]
    exact nofun
  have nothing : cursor.peek = none := by
    rw [Cursor.peek, atEnd]
    rfl
  unfold Rests next
  dsimp only
  rw [start, nothing]
  rfl

variable {character : Char} {fault : Fault} {cursor after : Cursor}

theorem scanString_fails (failed : scanString cursor = .error fault after) :
    fault.isUnterminated = true ∧ after.rest = [] := by
  unfold scanString at failed
  dsimp only at failed
  cases closing : (cursor.advance.readWhile fun other => decide (other ≠ '"')).2.peek with
  | none =>
      rw [closing] at failed
      cases failed
      exact ⟨rfl, List.head?_eq_none_iff.mp closing⟩
  | some quote =>
      rw [closing] at failed
      cases failed

theorem scanSymbol_succeeds (first : cursor.peek = some character)
    (starts : TokenKind.ofChar? character = some .symbol) :
    scanSymbol cursor ≠ .error fault after := by
  have letterOrOperator : Text.isLetter character = true ∨ Text.isOperator character = true := by
    rcases TokenKind.ofChar?_cases starts with
      marked | ⟨impossible, -⟩ | ⟨-, letter⟩ | ⟨impossible, -⟩ | ⟨-, operator⟩
    · cases marked
    · cases impossible
    · exact .inl letter
    · cases impossible
    · exact .inr operator
  intro failed
  unfold scanSymbol at failed
  rw [first] at failed
  dsimp only at failed
  by_cases letter : Text.isLetter character = true
  · rw [if_pos letter] at failed
    cases failed
  · have operator := letterOrOperator.resolve_left letter
    rw [if_neg letter, if_pos operator] at failed
    cases failed

theorem scan_fails {kind : TokenKind} (first : cursor.peek = some character)
    (starts : TokenKind.ofChar? character = some kind)
    (failed : scan kind cursor = .error fault after) :
    fault.isUnterminated = true ∧ after.rest = [] := by
  cases kind with
  | string => exact scanString_fails failed
  | symbol => exact (scanSymbol_succeeds first starts failed).elim
  | number => cases failed
  | openBrace | closeBrace | openParen | closeParen | dot | semicolon | comma => cases failed

theorem rests_of_next {ending : Option Fault}
    (came : next cursor = ended ending after) : Rests (remaining ending) after := by
  unfold next at came
  dsimp only at came
  cases first : (cursor.readWhile Text.isBlank).2.peek with
  | none =>
      rw [first] at came
      cases ending with
      | some fault => cases came
      | none =>
          cases came
          exact rests_of_rest_nil (List.head?_eq_none_iff.mp first)
  | some character =>
      rw [first] at came
      dsimp only at came
      cases starts : TokenKind.ofChar? character with
      | none =>
          rw [starts] at came
          cases ending with
          | none => cases came
          | some fault =>
              cases came
              unfold Rests next
              dsimp only
              rw [Cursor.readWhile_again, first]
              dsimp only
              rw [starts]
              rfl
      | some kind =>
          rw [starts] at came
          dsimp only at came
          cases scanned : scan kind (cursor.readWhile Text.isBlank).2 with
          | ok token stop =>
              rw [scanned] at came
              cases ending <;> cases came
          | error fault stop =>
              rw [scanned] at came
              obtain ⟨unterminated, atEnd⟩ := scan_fails first starts scanned
              cases ending with
              | none => cases came
              | some other =>
                  cases came
                  have gone : remaining (some fault) = none := by
                    rw [remaining, Option.filter_some, unterminated]
                    rfl
                  rw [gone]
                  exact rests_of_rest_nil atEnd

end Token

namespace TokenStream

open Token (ended remaining)

/-! ### What all operations preserve -/

/-- One stream becomes another by operations, whatever they come to. -/
inductive Becomes (first : TokenStream) : TokenStream → Prop where
  | same : Becomes first first
  | step {stream : TokenStream} (before : Becomes first stream) (operation : Operation) :
      Becomes first (left (operation.run stream))

/-- What holds of a stream still holds when the reader has succeeded or failed. -/
def Preserves {α : Type} (holds : TokenStream → Prop) (reader : Reading α) : Prop :=
  ∀ stream, holds stream → holds (left (reader stream))

section Preserves

variable {holds : TokenStream → Prop}

namespace Preserves

theorem pure {α : Type} (value : α) : Preserves holds (Pure.pure value : Reading α) :=
  fun _ held => held

theorem throw {α : Type} (fault : Fault) : Preserves holds (throw fault : Reading α) :=
  fun _ held => held

theorem get : Preserves holds (get : Reading TokenStream) :=
  fun _ held => held

theorem bind {α β : Type} {first : Reading α} {next : α → Reading β}
    (preserves : Preserves holds first) (others : ∀ value, Preserves holds (next value)) :
    Preserves holds (first >>= next) := by
  intro stream held
  have start := preserves stream held
  rw [bind_apply]
  cases done : first stream with
  | error fault after =>
      rw [done] at start
      exact start
  | ok value after =>
      rw [done] at start
      exact others value after start

end Preserves

/-- What holds of a stream lasts if looking, passing over a token and moving to a scanned one preserve
it. All operations come down to these three. -/
structure Lasts (holds : TokenStream → Prop) : Prop where
  peek : Preserves holds peek
  advance : ∀ stream : TokenStream, holds stream → holds stream.advance
  moveTo : ∀ (checkpoint : Nat) (stream : TokenStream), holds stream →
    holds (stream.moveTo checkpoint)

namespace Lasts

variable (lasts : Lasts holds)

include lasts

theorem read : Preserves holds read := by
  apply lasts.peek.bind
  intro token
  have passes : Preserves holds (modify TokenStream.advance : Reading Unit) := lasts.advance
  exact passes.bind fun _ => .pure token

theorem readEach (count : Nat) : Preserves holds (readEach count) := by
  induction count with
  | zero => exact .pure []
  | succ count ih => exact lasts.read.bind fun _ => ih.bind fun _ => .pure _

theorem peekKind : Preserves holds peekKind :=
  lasts.peek.bind fun _ => .pure _

theorem restore (checkpoint : Nat) : Preserves holds (restore checkpoint) := by
  intro stream held
  rw [restore_apply]
  by_cases beyond : stream.scanned.length < checkpoint
  · rw [if_pos beyond]
    exact held
  · rw [if_neg beyond]
    exact lasts.moveTo checkpoint stream held

theorem savingPositionIf {α : Type} (goesBack : α → Bool) {body : Reading α}
    (preserves : Preserves holds body) : Preserves holds (savingPositionIf goesBack body) := by
  intro stream held
  rw [savingPositionIf_apply]
  refine preserves.bind (fun result => ?_) stream held
  by_cases back : goesBack result = true
  · rw [if_pos back]
    exact (lasts.restore stream.position).bind fun _ => .pure result
  · rw [if_neg back]
    exact .pure result

theorem nextPosition : Preserves holds nextPosition := by
  apply lasts.peek.bind
  intro found
  cases found with
  | some token => exact .pure _
  | none => exact Preserves.get.bind fun _ => .pure _

theorem nextPreview : Preserves holds nextPreview :=
  lasts.nextPosition.bind fun _ => Preserves.get.bind fun _ => .pure _

theorem problemHere (complaint : Complaint) : Preserves holds (problemHere complaint) :=
  lasts.nextPosition.bind fun _ => lasts.nextPreview.bind fun _ => .pure _

theorem expectKind (kind : TokenKind) (complaint : Complaint) :
    Preserves holds (expectKind kind complaint) := by
  apply lasts.peekKind.bind
  intro found
  by_cases other : found ≠ some kind
  · rw [if_pos other]
    exact (lasts.problemHere complaint).bind fun _ => .throw _
  · rw [if_neg other]
    exact .pure ()

theorem run (operation : Operation) : Preserves holds operation.run := by
  cases operation with
  | peek => exact lasts.peek.bind fun _ => .pure _
  | read => exact lasts.read.bind fun _ => .pure _
  | peekKind => exact lasts.peekKind.bind fun _ => .pure _
  | save => exact Preserves.get.bind fun _ => .pure _
  | restore checkpoint => exact (lasts.restore checkpoint).bind fun _ => .pure _
  | savingPositionIf goesBack count =>
      exact (lasts.savingPositionIf goesBack (lasts.readEach count)).bind fun _ => .pure _
  | nextPosition => exact lasts.nextPosition.bind fun _ => .pure _
  | nextPreview => exact lasts.nextPreview.bind fun _ => .pure _
  | problemHere complaint => exact (lasts.problemHere complaint).bind fun _ => .pure _
  | expectKind kind complaint => exact (lasts.expectKind kind complaint).bind fun _ => .pure _

theorem of_becomes {first stream : TokenStream} (becomes : Becomes first stream)
    (held : holds first) : holds stream := by
  induction becomes with
  | same => exact held
  | step before operation ih => exact lasts.run operation _ ih

end Lasts

end Preserves

/-! ### Looking again -/

/-- All tokens are scanned, and the next scan ends like this without moving on. -/
structure Spent (all : List Token) (ending : Option Fault) (stream : TokenStream) : Prop where
  scanned : stream.scanned = all
  rests : Token.Rests ending stream.cursor

section Spent

variable {all : List Token} {ending : Option Fault} {stream : TokenStream}

/-- Looking finds a token that was scanned before, or ends once more and changes nothing. -/
theorem Spent.peek_eq (spent : Spent all ending stream) :
    peek stream =
      match stream.ahead with
      | token :: _ => .ok (some token) stream
      | [] => ended ending stream := by
  unfold peek
  cases ahead : stream.ahead with
  | cons token others => rfl
  | nil =>
      dsimp only
      have rests : Token.next stream.cursor = ended ending stream.cursor := spent.rests
      rw [scanNext, rests]
      cases stream with
      | mk behind front cursor =>
          cases ahead
          cases ending <;> rfl

theorem lasts_spent (all : List Token) (ending : Option Fault) : Lasts (Spent all ending) where
  peek := by
    intro stream spent
    have same : left (peek stream) = stream := by
      rw [spent.peek_eq]
      cases stream.ahead with
      | cons token others => rfl
      | nil => cases ending <;> rfl
    rw [same]
    exact spent
  advance := by
    intro stream spent
    constructor
    · rw [scanned_advance, spent.scanned]
    · rw [cursor_advance]
      exact spent.rests
  moveTo := by
    intro checkpoint stream spent
    constructor
    · rw [scanned_moveTo, spent.scanned]
    · rw [cursor_moveTo]
      exact spent.rests

theorem Spent.outcome_peek (spent : Spent all ending stream) :
    outcome (peek stream) = promised all ending stream.position := by
  have next : all[stream.position]? = stream.ahead.head? := by
    rw [← spent.scanned, TokenStream.scanned, position, ← List.length_reverse,
      List.getElem?_append_right (Nat.le_refl _), Nat.sub_self, List.head?_eq_getElem?]
  unfold promised
  rw [spent.peek_eq, next]
  cases stream.ahead with
  | cons token others => rfl
  | nil => cases ending <;> rfl

end Spent

section Repeated

variable {stream after : TokenStream} {ending : Option Fault}

theorem peek_again_or_ended (stream : TokenStream) :
    (∃ token after, peek stream = .ok (some token) after ∧
      peek after = .ok (some token) after) ∨
    ∃ ending after, peek stream = ended ending after := by
  unfold peek
  cases ahead : stream.ahead with
  | cons token others => exact .inl ⟨token, stream, rfl, by rw [ahead]⟩
  | nil =>
      dsimp only
      unfold scanNext
      rw [ahead]
      cases Token.next stream.cursor with
      | error fault cursor => exact .inr ⟨some fault, _, rfl⟩
      | ok found cursor =>
          cases found with
          | none => exact .inr ⟨none, _, rfl⟩
          | some token => exact .inl ⟨token, _, rfl, rfl⟩

theorem spent_of_peek (came : peek stream = ended ending after) :
    Spent stream.scanned (remaining ending) after ∧ after.ahead = [] ∧
      after.position = stream.position := by
  unfold peek at came
  cases ahead : stream.ahead with
  | cons token others =>
      rw [ahead] at came
      cases ending <;> cases came
  | nil =>
      rw [ahead] at came
      dsimp only at came
      unfold scanNext at came
      cases scanned : Token.next stream.cursor with
      | error fault cursor =>
          rw [scanned] at came
          cases ending with
          | none => cases came
          | some other =>
              cases came
              exact ⟨⟨rfl, Token.rests_of_next scanned⟩, ahead, rfl⟩
      | ok found cursor =>
          rw [scanned] at came
          cases ending with
          | some fault => cases came
          | none =>
              cases found with
              | some token => cases came
              | none =>
                  cases came
                  have nothing : stream.ahead ++ [] = [] := by rw [ahead, List.append_nil]
                  have stops : Token.next stream.cursor = ended none cursor := scanned
                  refine ⟨⟨?_, Token.rests_of_next stops⟩, nothing, rfl⟩
                  simp only [TokenStream.scanned, Option.toList_none, List.append_nil]

theorem peek_again_of_ended (came : peek stream = ended ending after) :
    peek after = ended (remaining ending) after := by
  obtain ⟨spent, nothing, -⟩ := spent_of_peek came
  rw [spent.peek_eq, nothing]

/-- Two looks in a row come to the same, unless the first meets a string without an end. -/
theorem outcome_peek_again_iff (stream : TokenStream) :
    outcome (peek (left (peek stream))) = outcome (peek stream) ↔
      ∀ fault, outcome (peek stream) = .error fault → fault.isUnterminated = false := by
  rcases peek_again_or_ended stream with ⟨token, after, first, second⟩ | ⟨ending, after, first⟩
  · rw [first, left, second]
    constructor
    · intro _ fault failed
      cases failed
    · exact fun _ => rfl
  · have stays : left (peek stream) = after := by
      rw [first]
      cases ending <;> rfl
    rw [stays, peek_again_of_ended first, first]
    cases ending with
    | none =>
        constructor
        · intro _ fault failed
          cases failed
        · exact fun _ => rfl
    | some fault =>
        rw [remaining, Option.filter_some]
        cases unterminated : fault.isUnterminated with
        | true =>
            constructor
            · intro same
              cases same
            · intro closed
              rw [closed fault rfl] at unterminated
              cases unterminated
        | false =>
            constructor
            · intro _ other failed
              cases failed
              exact unterminated
            · exact fun _ => rfl

theorem kept_of_peek_error {fault : Fault} (failed : peek stream = .error fault after) :
    after.position = stream.position ∧ after.scanned = stream.scanned := by
  have came : peek stream = ended (some fault) after := failed
  obtain ⟨spent, -, same⟩ := spent_of_peek came
  exact ⟨same, spent.scanned⟩

theorem peek_error_of_read {fault : Fault} (failed : read stream = .error fault after) :
    peek stream = .error fault after := by
  rw [read_apply] at failed
  cases looked : peek stream with
  | ok token middle =>
      rw [looked] at failed
      cases failed
  | error other middle =>
      rw [looked] at failed
      exact failed

/-- A second look comes to the same as the first, unless that met a string without an end. A look or
a read that fails leaves the position and the tokens scanned as they are. Once a look ends, all later
ones do at that place: at the end of the text or with a fault, as before, but behind a string without
an end as if the text were over. -/
theorem peek_repeats (stream : TokenStream) :
    (outcome (peek (left (peek stream))) = outcome (peek stream) ↔
      ∀ fault, outcome (peek stream) = .error fault → fault.isUnterminated = false) ∧
    outcome (read stream) = outcome (peek stream) ∧
    (∀ fault after, peek stream = .error fault after ∨ read stream = .error fault after →
      after.position = stream.position ∧ after.scanned = stream.scanned) ∧
    ∀ ending after later, peek stream = ended ending after → Becomes after later →
      later.scanned = stream.scanned ∧
        outcome (peek later) = promised stream.scanned (remaining ending) later.position := by
  refine ⟨outcome_peek_again_iff stream, ?_, ?_, ?_⟩
  · rw [read_apply]
    cases peek stream <;> rfl
  · rintro fault after (failed | failed)
    · exact kept_of_peek_error failed
    · exact kept_of_peek_error (peek_error_of_read failed)
  · intro ending after later came becomes
    have spent := (lasts_spent _ _).of_becomes becomes (spent_of_peek came).1
    exact ⟨spent.scanned, spent.outcome_peek⟩

/-- In front of a quote mark without a second one, the first look fails and the second says that
there is nothing more. -/
theorem unterminated_peeked_once :
    let stream := ofText ['"', 'a', 'b', 'c']
    (∃ fault, outcome (peek stream) = .error fault ∧ fault.isUnterminated = true) ∧
      outcome (peek (left (peek stream))) = .ok none ∧
      outcome (peek (left (peek stream))) ≠ outcome (peek stream) := by
  intro stream
  refine ⟨⟨_, rfl, rfl⟩, rfl, ?_⟩
  intro same
  cases same

end Repeated

end TokenStream

end MessageForms
