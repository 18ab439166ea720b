import MessageForms.Proofs.Grammar.Outcome
import MessageForms.Proofs.Rendering.Reading
import MessageForms.Proofs.Source.Shift

set_option autoImplicit false

/-! The valid-prefix property of reading. When a text is refused, the report stands at the first
token that cannot be right: what is in front of it can be completed to a program, and with it
nothing can. A dot is reported for what follows it, so there the token behind the dot is needed as
well. -/

namespace MessageForms

open TokenStream (tokenize)
open Grammar

/-! ### The place of a report -/

/-- The report stands at the token with the given index, or at the end of the text if the index is
that of no token. -/
def Diagnostic.IsAnchoredAt (diagnostic : Diagnostic) (text : Text) (tokens : List Token)
    (index : Nat) : Prop :=
  index ≤ tokens.length ∧
    diagnostic.line = some ((upcomingPosition text (tokens.drop index)).row + 1) ∧
    diagnostic.column = some ((upcomingPosition text (tokens.drop index)).column + 1)

theorem upcomingProblem_isAnchoredAt (file : Option Text) (text : Text) {tokens : List Token}
    (cause : Complaint) {index : Nat} (bound : index ≤ tokens.length) :
    ((upcomingProblem text (tokens.drop index) cause).diagnostic file).IsAnchoredAt text tokens
      index :=
  ⟨bound, rfl, rfl⟩

namespace MaximalMunch

variable {before text margin rest : Text} {pieces : List (Text × Token)}

theorem exists_anchor (division : MaximalMunch before text pieces margin rest) {index : Nat}
    (bound : index ≤ pieces.length) :
    ∃ extra, upcomingPosition (before ++ text) ((pieces.map Prod.snd).drop index) =
      Position.after (before ++ extra) := by
  induction division generalizing index with
  | stop blank stuck =>
      rw [List.map_nil, List.drop_nil]
      exact ⟨_, rfl⟩
  | @piece before gap following margin rest token pieces isNext others ih =>
      cases index with
      | zero => exact ⟨gap, isNext.placed⟩
      | succ index =>
          obtain ⟨extra, anchor⟩ := ih (Nat.le_of_succ_le_succ bound)
          refine ⟨gap ++ (token.lexeme ++ extra), ?_⟩
          simp only [List.append_assoc] at anchor
          exact anchor

theorem anchor_injective (division : MaximalMunch before text pieces margin rest)
    {index index' : Nat} (bound : index ≤ pieces.length) (bound' : index' ≤ pieces.length)
    (same : upcomingPosition (before ++ text) ((pieces.map Prod.snd).drop index) =
      upcomingPosition (before ++ text) ((pieces.map Prod.snd).drop index')) : index = index' := by
  induction division generalizing index index' with
  | stop blank stuck => exact (Nat.le_zero.mp bound).trans (Nat.le_zero.mp bound').symm
  | @piece before gap following margin rest token pieces isNext others ih =>
      have apart {index : Nat} (bound : index ≤ pieces.length) :
          upcomingPosition (before ++ (gap ++ (token.lexeme ++ following)))
            ((pieces.map Prod.snd).drop index) ≠ token.position := by
        obtain ⟨extra, anchor⟩ := others.exists_anchor bound
        obtain ⟨start, tail, written, -⟩ := Token.exists_start isNext.fits
        have longer : token.lexeme ++ extra ≠ [] := by
          rw [written]
          exact List.cons_ne_nil _ _
        simp only [List.append_assoc] at anchor
        rw [anchor, isNext.placed, ← List.append_assoc before]
        exact Position.after_append_ne _ longer
      cases index with
      | zero =>
          cases index' with
          | zero => rfl
          | succ index' => exact (apart (Nat.le_of_succ_le_succ bound') same.symm).elim
      | succ index =>
          cases index' with
          | zero => exact (apart (Nat.le_of_succ_le_succ bound) same).elim
          | succ index' =>
              apply congrArg Nat.succ
              apply ih (Nat.le_of_succ_le_succ bound) (Nat.le_of_succ_le_succ bound')
              simp only [List.append_assoc]
              exact same

end MaximalMunch

theorem Diagnostic.IsAnchoredAt.unique {diagnostic : Diagnostic} {text : Text}
    {tokens : List Token} {ending : Option Fault} (lexed : (tokenize text).1 = (tokens, ending))
    {index index' : Nat} (anchored : diagnostic.IsAnchoredAt text tokens index)
    (anchored' : diagnostic.IsAnchoredAt text tokens index') : index' = index := by
  obtain ⟨pieces, margin, rest, division, listed⟩ := TokenStream.exists_tokenize_eq text
  rw [lexed] at listed
  cases listed
  obtain ⟨bound, line, column⟩ := anchored
  obtain ⟨bound', line', column'⟩ := anchored'
  rw [List.length_map] at bound bound'
  apply division.anchor_injective bound' bound
  have sameRow := Option.some.inj (line'.symm.trans line)
  have sameColumn := Option.some.inj (column'.symm.trans column)
  rw [List.nil_append, Position.mk.injEq]
  exact ⟨by omega, by omega⟩

/-! ### Accepted signs -/

/-- Some text whose tokens have the signs is read as a program. -/
def Accepted (signs : List Sign) : Prop :=
  ∃ text tokens forms, (tokenize text).1 = (tokens, none) ∧ tokens.map Token.sign = signs ∧
    readProgram .standard none text = .ok { forms, diagnostics := [] }

namespace Grammar

theorem Items.Derives.accepted {program : Items} {tokens : List Token}
    (derives : program.Derives .standard tokens) (fits : AllFit tokens) :
    Accepted (tokens.map Token.sign) := by
  obtain ⟨text, laid⟩ := exists_layout (tokens.map Token.sign)
  obtain ⟨tokens', lexed, same⟩ := laid.exists_tokenize fun sign among => by
    obtain ⟨token, member, rfl⟩ := List.mem_map.mp among
    exact fits token member
  have parsed := derives.parseTokens_eq fits
  rcases parseTokens_numbered_cases fits with ⟨base, derivesBase, -⟩ | ⟨_, _, _, -, -, -, stopped⟩
  · have parsedBase := derivesBase.parseTokens_eq (allFit_numbered fits)
    rw [← same] at parsedBase
    have parsed' := parseTokens_of_numbered parsedBase
    rw [← parseProgram_eq_parseTokens lexed] at parsed'
    exact ⟨text, tokens', _, lexed, same, readProgram_of_parse none parsed'⟩
  · rw [parsed] at stopped
    cases stopped

theorem CompletesItems.exists_accepted {front : List Token}
    (completes : CompletesItems .standard Reading.bodyDelimiters none front)
    (fits : AllFit front) : ∃ more, Accepted (front.map Token.sign ++ more) := by
  obtain ⟨program, rest, listed, fitsRest, wellFormed⟩ := completes
  have derives : program.Derives .standard (front ++ rest) := ⟨listed, wellFormed [] rfl⟩
  refine ⟨rest.map Token.sign, ?_⟩
  rw [← List.map_append]
  exact derives.accepted (fits.append fitsRest)

/-! ### Refused signs -/

/-- How many tokens the parser looks at before it goes on. -/
def seen : List Token → Nat
  | [] => 0
  | token :: _ => if token.kind = .dot then 2 else 1

theorem seen_moved (place : Position → Position) (tokens : List Token) :
    seen (tokens.map (Token.moved place)) = seen tokens := by
  cases tokens <;> rfl

theorem sameStart_of_take {tokens tokens' : List Token} (nonempty : tokens ≠ [])
    (enough : seen tokens ≤ tokens.length)
    (same : tokens'.take (seen tokens) = tokens.take (seen tokens)) : SameStart tokens tokens' := by
  obtain ⟨token, others, rfl⟩ := List.exists_cons_of_ne_nil nonempty
  cases tokens' with
  | nil =>
      have none : seen (token :: others) = 0 := by
        have length := congrArg List.length same
        rw [List.take_nil, List.length_nil, List.length_take] at length
        omega
      rw [seen] at none
      split at none <;> cases none
  | cons token' others' =>
      by_cases dot : token.kind = .dot
      · rw [seen, if_pos dot] at same enough
        simp only [List.take_succ_cons, List.cons.injEq] at same
        refine ⟨same.1, fun _ => ?_⟩
        have heads := congrArg List.head? same.2
        rw [List.head?_take, List.head?_take] at heads
        exact heads
      · rw [seen, if_neg dot] at same
        simp only [List.take_succ_cons, List.cons.injEq] at same
        exact ⟨same.1, fun is => (dot is).elim⟩

private theorem exists_of_take {front ahead tokens : List Token} {count : Nat}
    (start : tokens.take (front.length + count) = front ++ ahead) :
    ∃ rest, tokens = front ++ rest ∧ rest.take count = ahead := by
  have first := congrArg (List.take front.length) start
  have second := congrArg (List.drop front.length) start
  rw [List.take_take, Nat.min_eq_left (Nat.le_add_right _ _), List.take_left] at first
  rw [List.drop_take, List.drop_left, Nat.add_sub_cancel_left] at second
  refine ⟨tokens.drop front.length, ?_, second⟩
  calc
    tokens = tokens.take front.length ++ tokens.drop front.length :=
      (List.take_append_drop _ _).symm
    _ = front ++ tokens.drop front.length := by rw [first]

private theorem exists_numbered_stop {front rest : List Token} {cause : Complaint}
    (fits : AllFit (front ++ rest))
    (stopped : parseTokens (front ++ rest) = .error (.complaint cause) rest) :
    ∃ frontBase restBase, numbered ((front ++ rest).map Token.sign) = frontBase ++ restBase ∧
      frontBase.length = front.length ∧
      restBase.map (Token.moved (placesOf (front ++ rest))) = rest ∧
      parseTokens (frontBase ++ restBase) = .error (.complaint cause) restBase := by
  rcases parseTokens_numbered_cases fits with
    ⟨base, -, parsed⟩ | ⟨cause', frontBase, restBase, -, split, stoppedBase, stoppedAgain⟩
  · rw [stopped] at parsed
    cases parsed
  · rw [stopped] at stoppedAgain
    injection stoppedAgain with sameStop sameRest
    cases sameStop
    have whole := numbered_moved (front ++ rest)
    have sizes := congrArg List.length whole
    have restSize := congrArg List.length sameRest
    rw [split] at whole sizes stoppedBase
    simp only [List.length_map, List.length_append, List.length_drop] at sizes restSize
    refine ⟨frontBase, restBase, split, by omega, ?_, stoppedBase⟩
    rw [List.map_append] at whole
    refine (List.append_inj whole ?_).2
    rw [List.length_map]
    omega

/-- No signs are accepted that start as those of refused tokens do, up to what was seen when the
complaint was made. -/
theorem not_accepted_of_stops {front rest : List Token} {cause : Complaint}
    (fits : AllFit (front ++ rest))
    (stopped : parseTokens (front ++ rest) = .error (.complaint cause) rest) (nonempty : rest ≠ [])
    (enough : seen rest ≤ rest.length) (more : List Sign) :
    ¬ Accepted (((front ++ rest).map Token.sign).take (front.length + seen rest) ++ more) := by
  intro claimed
  obtain ⟨text, tokens, forms, lexed, same, accepted⟩ := claimed
  obtain ⟨program, left, parsed, -⟩ := exists_parse_of_readProgram accepted
  rw [parseProgram_eq_parseTokens lexed] at parsed
  obtain ⟨frontBase, restBase, split, size, moved, stoppedBase⟩ := exists_numbered_stop fits stopped
  have seenBase : seen restBase = seen rest := by rw [← moved, seen_moved]
  have restSize : restBase.length = rest.length := by rw [← moved, List.length_map]
  have start : ((front ++ rest).map Token.sign).take (front.length + seen rest) =
      (tokens.map Token.sign).take (front.length + seen rest) := by
    rw [same, List.take_left']
    rw [List.length_take_of_le]
    simp only [List.length_map, List.length_append]
    omega
  -- The numbered tokens carry the complaint over to whatever starts as they do.
  have begins := take_numbered_moved start
  rw [split, ← size, List.take_length_add_append, List.map_append,
    ← List.length_map (f := Token.moved (placesOf tokens))] at begins
  obtain ⟨behind, whole, ahead⟩ := exists_of_take begins.symm
  have alike : SameStart (restBase.map (Token.moved (placesOf tokens))) behind := by
    apply sameStart_of_take
    · intro none
      rw [List.map_eq_nil_iff] at none
      subst none
      exact nonempty moved.symm
    · rw [seen_moved, seenBase, List.length_map, restSize]
      exact enough
    · rw [seen_moved, seenBase, ahead, List.map_take]
  have fitsAll : AllFit (frontBase.map (Token.moved (placesOf tokens)) ++ behind) := by
    rw [← whole]
    exact allFit_of_tokenize lexed
  have again := parseTokens_stops_again (placesOf tokens) stoppedBase alike fitsAll
  rw [← whole, parsed] at again
  cases again

end Grammar

private theorem exists_cons_of_getElem?_zero {tokens : List Token} {token : Token}
    (first : tokens[0]? = some token) : ∃ others, tokens = token :: others := by
  cases tokens with
  | nil => cases first
  | cons token' others =>
      cases first
      exact ⟨others, rfl⟩

/-- The report about a text that is cut into tokens to its end and refused stands at one token, or
at the end of the text. The tokens in front of it can be completed to a program. With that token
they cannot any more, unless it is a dot; then they cannot with the token behind the dot. -/
theorem readProgram_valid_prefix {text : Text} {tokens : List Token} {file : Option Text}
    (lexed : (tokenize text).1 = (tokens, none))
    (refused : ∀ forms, readProgram .standard file text ≠ .ok { forms, diagnostics := [] }) :
    ∃ diagnostic index,
      readProgram .standard file text = .ok { forms := [], diagnostics := [diagnostic] } ∧
      diagnostic.IsAnchoredAt text tokens index ∧
      (∀ other, diagnostic.IsAnchoredAt text tokens other → other = index) ∧
      (∃ more, Accepted ((tokens.map Token.sign).take index ++ more)) ∧
      (∀ token, tokens[index]? = some token → token.kind ≠ .dot →
        ∀ more, ¬ Accepted ((tokens.map Token.sign).take (index + 1) ++ more)) ∧
      (∀ token, tokens[index]? = some token → token.kind = .dot → index + 1 < tokens.length →
        ∀ more, ¬ Accepted ((tokens.map Token.sign).take (index + 2) ++ more)) := by
  have fits := allFit_of_tokenize lexed
  have parsed := parseProgram_eq_parseTokens lexed
  rcases parseTokens_cases fits with
    ⟨tree, accepted, -⟩ | ⟨cause, front, rest, stopped, -, rfl, completes⟩
  · rw [accepted] at parsed
    exact (refused _ (readProgram_of_parse file parsed)).elim
  · rw [stopped] at parsed
    have bound : front.length ≤ (front ++ rest).length := by
      rw [List.length_append]
      exact Nat.le_add_right _ _
    have anchored := upcomingProblem_isAnchoredAt file text cause bound
    rw [List.drop_left] at anchored
    refine ⟨_, front.length, readProgram_of_complaint file parsed, anchored,
      fun other anchoredOther => anchored.unique lexed anchoredOther, ?_, ?_, ?_⟩
    · rw [← List.map_take, List.take_left]
      exact completes.exists_accepted (List.forall_mem_append.mp fits).1
    · intro token found unlike
      rw [List.getElem?_append_right (Nat.le_refl _), Nat.sub_self] at found
      obtain ⟨others, rfl⟩ := exists_cons_of_getElem?_zero found
      have one : seen (token :: others) = 1 := if_neg unlike
      have decided := not_accepted_of_stops fits stopped (List.cons_ne_nil _ _)
      rw [one] at decided
      exact decided (Nat.succ_le_succ (Nat.zero_le _))
    · intro token found dot within
      rw [List.getElem?_append_right (Nat.le_refl _), Nat.sub_self] at found
      obtain ⟨others, rfl⟩ := exists_cons_of_getElem?_zero found
      have two : seen (token :: others) = 2 := if_pos dot
      have decided := not_accepted_of_stops fits stopped (List.cons_ne_nil _ _)
      rw [two] at decided
      apply decided
      rw [List.length_append] at within
      omega

/-- The report about `(;` stands at the semicolon: a parenthesis can be completed, but not with a
semicolon behind it. -/
theorem readProgram_valid_prefix_semicolon :
    ∃ diagnostic,
      readProgram .standard none ['(', ';'] = .ok { forms := [], diagnostics := [diagnostic] } ∧
      diagnostic.column = some 2 ∧ (∃ more, Accepted (.mark .openParen :: more)) ∧
      ∀ more, ¬ Accepted (.mark .openParen :: .mark .semicolon :: more) := by
  have lexed : (tokenize ['(', ';']).1 =
      ([⟨.openParen, ['('], ⟨0, 0⟩⟩, ⟨.semicolon, [';'], ⟨0, 1⟩⟩], none) := by decide
  have reported : readProgram .standard none ['(', ';'] =
      .ok { forms := [], diagnostics := [(upcomingProblem ['(', ';']
        [⟨.semicolon, [';'], ⟨0, 1⟩⟩] .expressionExpected).diagnostic none] } := rfl
  have refused (forms : List Node) :
      readProgram .standard none ['(', ';'] ≠ .ok { forms, diagnostics := [] } := by
    rw [reported]
    intro claimed
    cases claimed
  obtain ⟨diagnostic, index, read, -, only, completes, refutes, -⟩ :=
    readProgram_valid_prefix lexed refused
  have same := reported.symm.trans read
  cases same
  obtain rfl : 1 = index := only 1 ⟨by decide, rfl, rfl⟩
  exact ⟨_, reported, rfl, completes, refutes _ rfl (by decide)⟩

end MessageForms
