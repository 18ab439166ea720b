import MessageForms.Proofs.Token.Next
import MessageForms.Token.Stream

set_option autoImplicit false

/-! The division of a text into tokens. Every text has exactly one division into blanks and tokens
that are each as long as they can be, up to a place where no token stands; the tokens that a stream
gives one after another are those of this division, and the way in which reading ends tells what
stands at that place. -/

namespace MessageForms

open Cursor

/-- The text is divided into pieces, each of blanks and a token behind them, with further blanks
behind the last token and a rest where no token stands. The text in question follows on `before`,
from which the positions count. -/
inductive MaximalMunch : (before text : Text) → (pieces : List (Text × Token)) →
    (margin rest : Text) → Prop where
  | stop {before margin rest : Text}
      (blank : ∀ character ∈ margin, Text.isBlank character = true) (stuck : Token.Stuck rest) :
      MaximalMunch before (margin ++ rest) [] margin rest
  | piece {before gap following margin rest : Text} {token : Token} {pieces : List (Text × Token)}
      (isNext : token.IsNext before gap following)
      (others : MaximalMunch (before ++ gap ++ token.lexeme) following pieces margin rest) :
      MaximalMunch before (gap ++ (token.lexeme ++ following)) ((gap, token) :: pieces) margin rest

def spelled (pieces : List (Text × Token)) : Text :=
  pieces.flatMap fun piece => piece.1 ++ piece.2.lexeme

/-- The fault of a scan that is stuck between two halves of a text; at the end there is none. -/
def stopFault? (before rest : Text) : Option Fault :=
  match rest with
  | [] => none
  | character :: _ =>
      let position := Position.after before
      let preview := position.preview (before ++ rest)
      if character = '"' then
        some (.problem { complaint := .unterminatedString, position := some position,
                         preview := some preview, hint := none })
      else some (.unclassified character position preview)

namespace MaximalMunch

variable {before text margin rest : Text} {pieces : List (Text × Token)}

theorem text_eq (division : MaximalMunch before text pieces margin rest) :
    text = spelled pieces ++ margin ++ rest := by
  induction division with
  | stop blank stuck => rfl
  | piece isNext others ih =>
      rw [spelled, List.flatMap_cons, ← spelled, ih]
      simp only [List.append_assoc]

theorem stuck (division : MaximalMunch before text pieces margin rest) : Token.Stuck rest := by
  induction division with
  | stop blank stuck => exact stuck
  | piece isNext others ih => exact ih

theorem fits (division : MaximalMunch before text pieces margin rest) :
    ∀ piece ∈ pieces, piece.2.Fits := by
  induction division with
  | stop blank stuck => simp
  | piece isNext others ih =>
      intro piece member
      rcases List.mem_cons.mp member with rfl | later
      · exact isNext.fits
      · exact ih piece later

theorem exists_place (division : MaximalMunch before text pieces margin rest) {token : Token}
    (among : token ∈ pieces.map Prod.snd) :
    ∃ front following, before ++ text = front ++ (token.lexeme ++ following) ∧
      token.position = Position.after front := by
  induction division with
  | stop blank stuck => cases among
  | @piece before gap following margin rest first pieces isNext others ih =>
      rcases List.mem_cons.mp among with rfl | later
      · exact ⟨before ++ gap, following, (List.append_assoc before gap _).symm, isNext.placed⟩
      · obtain ⟨front, behind, split, placed⟩ := ih later
        simp only [List.append_assoc] at split ⊢
        exact ⟨front, behind, split, placed⟩

theorem length_le (division : MaximalMunch before text pieces margin rest) :
    pieces.length ≤ text.length := by
  induction division with
  | stop blank stuck => exact Nat.zero_le _
  | piece isNext others ih =>
      obtain ⟨start, tail, written, -⟩ := Token.exists_start isNext.fits
      simp only [written, List.length_cons, List.length_append] at ih ⊢
      omega

theorem exists_division (before text : Text) :
    ∃ pieces margin rest, MaximalMunch before text pieces margin rest := by
  rcases Token.isNext_or_stuck before text with
    ⟨gap, token, following, rfl, isNext⟩ | ⟨margin, rest, rfl, blank, stuck⟩
  · obtain ⟨start, tail, written, -⟩ := Token.exists_start isNext.fits
    have shorter : following.length < (gap ++ (token.lexeme ++ following)).length := by
      simp only [written, List.length_append, List.length_cons]
      omega
    obtain ⟨pieces, margin, rest, others⟩ :=
      exists_division (before ++ gap ++ token.lexeme) following
    exact ⟨_, _, _, .piece isNext others⟩
  · exact ⟨_, _, _, .stop blank stuck⟩
termination_by text.length

end MaximalMunch

/-! ### Scanning a division -/

theorem next_of_stuck (before : Text) {margin rest : Text}
    (blank : ∀ character ∈ margin, Text.isBlank character = true) (stuck : Token.Stuck rest) :
    ∃ final, Token.next (between before (margin ++ rest)) =
      match stopFault? (before ++ margin) rest with
      | none => .ok none final
      | some fault => .error fault final := by
  cases stuck with
  | ended =>
      rw [List.append_nil]
      exact ⟨_, Token.next_at_end before blank⟩
  | @unknown character rest visible unknown =>
      have other : character ≠ '"' := by
        intro same
        subst same
        cases unknown
      refine ⟨between (before ++ margin) (character :: rest), ?_⟩
      rw [Token.next_unclassified before blank visible unknown]
      simp only [stopFault?, if_neg other]
  | @unclosed content unquoted => exact ⟨_, Token.next_unterminated before blank unquoted⟩

private theorem visible_of_stuck {rest : Text} (stuck : Token.Stuck rest) :
    ∀ character ∈ rest.head?, Text.isBlank character = false := by
  intro character first
  cases stuck with
  | ended => cases first
  | unknown visible unknown => cases first; exact visible
  | unclosed unquoted => cases first; decide

namespace MaximalMunch

variable {before text margin rest : Text}

theorem of_nil (division : MaximalMunch before text [] margin rest) :
    text = margin ++ rest ∧ (∀ character ∈ margin, Text.isBlank character = true) ∧
      Token.Stuck rest := by
  cases division with
  | stop blank stuck => exact ⟨rfl, blank, stuck⟩

theorem of_cons {gap : Text} {token : Token} {pieces : List (Text × Token)}
    (division : MaximalMunch before text ((gap, token) :: pieces) margin rest) :
    ∃ following, text = gap ++ (token.lexeme ++ following) ∧
      token.IsNext before gap following ∧
      MaximalMunch (before ++ gap ++ token.lexeme) following pieces margin rest := by
  cases division with
  | piece isNext others => exact ⟨_, rfl, isNext, others⟩

private theorem nil_and_cons {gap margin' rest' : Text} {token : Token}
    {pieces : List (Text × Token)} (division : MaximalMunch before text [] margin rest)
    (other : MaximalMunch before text ((gap, token) :: pieces) margin' rest') : False := by
  rcases division.of_nil with ⟨split, blank, stuck⟩
  rcases other.of_cons with ⟨following, otherSplit, isNext, -⟩
  have scanned := Token.next_of_isNext isNext
  obtain ⟨final, stopped⟩ := next_of_stuck before blank stuck
  rw [← otherSplit, split, stopped] at scanned
  cases fault : stopFault? (before ++ margin) rest <;> rw [fault] at scanned <;> cases scanned

theorem unique {margin' rest' : Text} {pieces pieces' : List (Text × Token)}
    (division : MaximalMunch before text pieces margin rest)
    (other : MaximalMunch before text pieces' margin' rest') :
    pieces' = pieces ∧ margin' = margin ∧ rest' = rest := by
  induction pieces generalizing before text pieces' with
  | nil =>
      cases pieces' with
      | nil =>
          rcases division.of_nil with ⟨split, blank, stuck⟩
          rcases other.of_nil with ⟨otherSplit, otherBlank, otherStuck⟩
          have run := Text.takeWhile_append_of_stops _ blank (visible_of_stuck stuck)
          have otherRun :=
            Text.takeWhile_append_of_stops _ otherBlank (visible_of_stuck otherStuck)
          rw [← split] at run
          rw [← otherSplit] at otherRun
          have sameMargin : margin' = margin := otherRun.symm.trans run
          subst sameMargin
          exact ⟨rfl, rfl, List.append_cancel_left (otherSplit.symm.trans split)⟩
      | cons piece others => exact (nil_and_cons division other).elim
  | cons piece pieces ih =>
      cases pieces' with
      | nil => exact (nil_and_cons other division).elim
      | cons otherPiece others =>
          rcases piece with ⟨gap, token⟩
          rcases otherPiece with ⟨otherGap, otherToken⟩
          rcases division.of_cons with ⟨following, split, isNext, tail⟩
          rcases other.of_cons with ⟨otherFollowing, otherSplit, otherIsNext, otherTail⟩
          have scanned := Token.next_of_isNext isNext
          have otherScanned := Token.next_of_isNext otherIsNext
          rw [← split] at scanned
          rw [← otherSplit, scanned] at otherScanned
          injection otherScanned with sameToken sameCursor
          cases sameToken
          have sameFollowing : following = otherFollowing := congrArg Cursor.rest sameCursor
          subst sameFollowing
          have sameGap : otherGap = gap :=
            List.append_cancel_right (otherSplit.symm.trans split)
          subst sameGap
          obtain ⟨rfl, sameMargin, sameRest⟩ := ih tail otherTail
          exact ⟨rfl, sameMargin, sameRest⟩

end MaximalMunch

end MessageForms
