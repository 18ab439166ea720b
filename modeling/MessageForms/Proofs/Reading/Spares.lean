import MessageForms.Proofs.Reading.Lookahead
import MessageForms.Proofs.Reading.Progress

set_option autoImplicit false

/-! Readers that have no part in a given failure. Complaints about a macro form are made by the
reader of expressions alone: as long as the expressions inside are spared such a complaint, so are
the tokens, the lists and the modifiers. A dialect may make the complaint too; that is ruled out. -/

namespace MessageForms

/-- The complaint is about what follows the modifiers of a macro form. -/
def Complaint.IsAboutForm : Complaint → Prop
  | bodyExpected | contentAfterBody => True
  | _ => False

theorem Token.next_fails {cursor after : Cursor} {fault : Fault}
    (failed : next cursor = .error fault after) :
    fault.isUnterminated = true ∨
      ∃ character position preview, fault = .unclassified character position preview := by
  unfold next at failed
  dsimp only at failed
  cases first : (cursor.readWhile Text.isBlank).2.peek with
  | none =>
      rw [first] at failed
      cases failed
  | some character =>
      rw [first] at failed
      dsimp only at failed
      cases starts : TokenKind.ofChar? character with
      | none =>
          rw [starts] at failed
          cases failed
          exact .inr ⟨_, _, _, rfl⟩
      | some kind =>
          rw [starts] at failed
          dsimp only at failed
          cases scanned : scan kind (cursor.readWhile Text.isBlank).2 with
          | ok token stop =>
              rw [scanned] at failed
              cases failed
          | error other stop =>
              rw [scanned] at failed
              cases failed
              exact .inl (scan_fails first starts scanned).1

namespace Reading

open TokenStream (peek peekKind read fail restore savingPositionIf)

/-- The reader never fails with the problem while leaving the given stream. -/
def Spares (problem : Problem) (final : TokenStream) {α : Type} (reader : Reading α) : Prop :=
  ∀ stream, reader stream ≠ .error (.problem problem) final

section Spares

variable {problem : Problem} {final : TokenStream} {α β : Type}

theorem spares_pure (value : α) : Spares problem final (pure value : Reading α) :=
  fun _ => nofun

theorem spares_throw {fault : Fault} (other : fault ≠ .problem problem) :
    Spares problem final (throw fault : Reading α) := by
  intro stream failed
  cases failed
  exact other rfl

theorem Spares.bind {first : Reading α} {next : α → Reading β}
    (spares : Spares problem final first) (others : ∀ value, Spares problem final (next value)) :
    Spares problem final (first >>= next) := by
  intro stream failed
  obtain ⟨value, after, -, later⟩ := exists_of_bind_error failed (spares stream)
  exact others value after later

theorem spares_ite {decided : Prop} [Decidable decided] {yes no : Reading α}
    (sparesYes : Spares problem final yes) (sparesNo : Spares problem final no) :
    Spares problem final (if decided then yes else no) := by
  by_cases holds : decided
  · rw [if_pos holds]
    exact sparesYes
  · rw [if_neg holds]
    exact sparesNo

theorem spares_restore (checkpoint : Nat) : Spares problem final (restore checkpoint) := by
  intro stream failed
  rw [TokenStream.restore_apply] at failed
  by_cases beyond : stream.scanned.length < checkpoint
  · rw [if_pos beyond] at failed
    cases failed
  · rw [if_neg beyond] at failed
    cases failed

theorem spares_savingPositionIf {goesBack : α → Bool} {body : Reading α}
    (spares : Spares problem final body) :
    Spares problem final (savingPositionIf goesBack body) := by
  intro stream
  rw [TokenStream.savingPositionIf_apply]
  refine spares.bind (fun result => ?_) stream
  exact spares_ite ((spares_restore _).bind fun _ => spares_pure _) (spares_pure _)

theorem spares_firstMatch {attempts : List (Reading (Option Node))}
    (spares : ∀ attempt ∈ attempts, Spares problem final attempt) :
    Spares problem final (firstMatch attempts) := by
  induction attempts with
  | nil => exact spares_pure none
  | cons attempt others ih =>
      obtain ⟨here, behind⟩ := List.forall_mem_cons.mp spares
      refine (spares_savingPositionIf here).bind fun found => ?_
      cases found with
      | some node => exact spares_pure _
      | none => exact ih behind

section Steps

variable (about : problem.complaint.IsAboutForm)

include about

theorem spares_peek : Spares problem final peek := by
  intro stream failed
  unfold peek at failed
  cases ahead : stream.ahead with
  | cons token others =>
      rw [ahead] at failed
      cases failed
  | nil =>
      rw [ahead] at failed
      dsimp only at failed
      unfold TokenStream.scanNext at failed
      cases scanned : Token.next stream.cursor with
      | ok found cursor =>
          rw [scanned] at failed
          cases failed
      | error fault cursor =>
          rw [scanned] at failed
          cases failed
          rcases Token.next_fails scanned with unterminated | ⟨character, place, shown, impossible⟩
          · have same : problem.complaint = .unterminatedString := of_decide_eq_true unterminated
            rw [same] at about
            exact about
          · cases impossible

theorem spares_peekKind : Spares problem final peekKind :=
  (spares_peek about).bind fun _ => spares_pure _

theorem spares_read : Spares problem final read := by
  intro stream failed
  exact spares_peek about stream (TokenStream.peek_error_of_read failed)

theorem spares_takeAtom {understood : Token → Except Fault Atom} {token : Token}
    (sober : understood token ≠ .error (.problem problem)) :
    Spares problem final (takeAtom understood token) := by
  refine (spares_read about).bind fun _ => ?_
  cases known : understood token with
  | ok atom => exact spares_pure atom
  | error fault =>
      apply spares_throw
      intro same
      rw [known, same] at sober
      exact sober rfl

theorem spares_fail {complaint : Complaint} (other : ¬ complaint.IsAboutForm) :
    Spares problem final (fail complaint : Reading α) := by
  have position : Spares problem final TokenStream.nextPosition := by
    refine (spares_peek about).bind fun found => ?_
    cases found with
    | some token => exact spares_pure _
    | none => exact fun _ => nofun
  have preview : Spares problem final TokenStream.nextPreview :=
    position.bind fun _ => fun _ => nofun
  intro stream failed
  obtain ⟨made, after, found, thrown⟩ := exists_of_bind_error failed
    (position.bind (fun _ => preview.bind fun _ => spares_pure _) stream)
  obtain ⟨placed, middle, -, rest⟩ := exists_of_bind_ok found
  obtain ⟨shown, last, -, same⟩ := exists_of_bind_ok rest
  cases same
  cases thrown
  exact other about

end Steps

/-! ### Lists and modifiers -/

section Readers

variable {dialect : Dialect} {expression : Reading Node} {allowance : Nat}
  (about : problem.complaint.IsAboutForm) (spares : Spares problem final expression)

include about spares

theorem spares_moreItems (delimiters : List TokenKind) (close : Option TokenKind) :
    Spares problem final (moreItems expression delimiters close allowance) := by
  induction allowance with
  | zero => exact spares_throw nofun
  | succ allowance ih =>
      rw [moreItems.eq_def]
      refine (spares_peekKind about).bind fun found => ?_
      cases found with
      | none =>
          cases close with
          | none => exact spares_pure _
          | some expected => exact spares_fail about id
      | some found =>
          refine spares_ite (spares_pure _) (spares_ite (spares_fail about id) ?_)
          refine (spares_read about).bind fun _ => (spares_peekKind about).bind fun _ => ?_
          refine spares_ite (spares_pure _) (spares.bind fun item => ?_)
          exact ih.bind fun others => spares_pure _

theorem spares_delimitedList (opening : TokenKind) (delimiters : List TokenKind)
    (close : TokenKind) :
    Spares problem final (delimitedList expression opening delimiters close allowance) := by
  have listed : Spares problem final (items expression delimiters (some close) allowance) := by
    refine (spares_peekKind about).bind fun _ => spares_ite (spares_pure _) ?_
    exact spares.bind fun first =>
      (spares_moreItems about spares delimiters (some close)).bind fun _ => spares_pure _
  refine (spares_peekKind about).bind fun found => spares_ite (spares_throw nofun) ?_
  refine (spares_read about).bind fun _ => listed.bind fun inner => ?_
  exact (spares_read about).bind fun _ => spares_pure _

theorem spares_messageArguments :
    Spares problem final (messageArguments expression allowance) :=
  (spares_peekKind about).bind fun _ =>
    spares_ite (spares_delimitedList about spares _ _ _) (spares_pure _)

variable (sober : ¬ dialect.Raises (.problem problem))

include sober

theorem spares_attempt (attempt : Attempt) :
    Spares problem final (attempt.run dialect expression allowance) := by
  have send (form : List Node → Node) : Spares problem final
      (do return some (form (← messageArguments expression allowance))) :=
    (spares_messageArguments about spares).bind fun _ => spares_pure _
  have symbol (token : Token) : Spares problem final (takeAtom dialect.symbol token) :=
    spares_takeAtom about fun raised => sober ⟨token, .inr (.inl raised)⟩
  cases attempt with
  | message =>
      refine (spares_peek about).bind fun found => ?_
      cases found with
      | none => exact spares_pure _
      | some token =>
          dsimp only
          cases token.kind with
          | dot =>
              refine (spares_read about).bind fun _ => (spares_peek about).bind fun found => ?_
              cases found with
              | none => exact spares_pure _
              | some name =>
                  exact spares_ite ((symbol name).bind fun selector => send _) (spares_pure _)
          | symbol =>
              refine (symbol token).bind fun selector => (spares_peekKind about).bind fun _ => ?_
              exact spares_ite (spares.bind fun target => send _) (send _)
          | _ => exact spares_pure _
  | literal =>
      refine (spares_peek about).bind fun found => ?_
      cases found with
      | none => exact spares_pure _
      | some token =>
          dsimp only
          cases token.kind with
          | number =>
              exact (spares_takeAtom about fun raised => sober ⟨token, .inl raised⟩).bind
                fun _ => spares_pure _
          | string =>
              exact (spares_takeAtom about fun raised => sober ⟨token, .inr (.inr raised)⟩).bind
                fun _ => spares_pure _
          | _ => exact spares_pure _
  | parenthesized | braced =>
      refine (spares_peek about).bind fun found => ?_
      cases found with
      | none => exact spares_pure _
      | some token =>
          refine spares_ite ?_ (spares_pure _)
          exact (spares_delimitedList about spares _ _ _).bind fun inner => spares_pure _

theorem spares_modifier? : Spares problem final (modifier? dialect expression allowance) := by
  have every : ∀ attempt ∈ Attempt.all.map (Attempt.run dialect expression allowance),
      Spares problem final attempt := by
    intro reader among
    obtain ⟨attempt, -, rfl⟩ := List.mem_map.mp among
    exact spares_attempt about spares sober attempt
  exact spares_firstMatch every

theorem spares_modifiers (count : Nat) :
    Spares problem final (modifiers (modifier? dialect expression allowance) count) := by
  induction count with
  | zero => exact spares_throw nofun
  | succ count ih =>
      refine (spares_modifier? about spares sober).bind fun found => ?_
      cases found with
      | none => exact spares_pure _
      | some node => exact ih.bind fun others => spares_pure _

theorem spares_withOperator (left : Node) :
    Spares problem final (withOperator dialect expression left) := by
  refine (spares_peek about).bind fun found => ?_
  cases found with
  | none => exact spares_pure _
  | some token =>
      refine spares_ite ?_ (spares_pure _)
      refine (spares_takeAtom about fun raised => sober ⟨token, .inr (.inl raised)⟩).bind ?_
      exact fun operator => spares.bind fun right => spares_pure _

end Readers

end Spares

end Reading

end MessageForms
