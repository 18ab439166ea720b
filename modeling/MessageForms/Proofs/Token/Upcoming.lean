import MessageForms.Proofs.Token.MaximalMunch

set_option autoImplicit false

/-! What a stream still has to give: the tokens that it will yield one after another, and the fault
that ends them if one does, although only some of the tokens are scanned yet. Looking at tokens and
reading them is described in these terms, so that nothing else depends on how far a stream has
scanned. -/

namespace MessageForms

/-- Scanning from the cursor gives these tokens and then ends, with a fault or without. -/
def Cursor.Yields (text : Text) (ending : Option Fault) (cursor : Cursor) (tokens : List Token) :
    Prop :=
  ∃ before unread pieces margin rest,
    cursor = between before unread ∧ before ++ unread = text ∧
      MaximalMunch before unread pieces margin rest ∧ tokens = pieces.map Prod.snd ∧
      ending = stopFault? (before ++ spelled pieces ++ margin) rest

namespace Cursor.Yields

variable {text : Text} {ending : Option Fault} {cursor : Cursor}

theorem text_eq {tokens : List Token} (yields : cursor.Yields text ending tokens) :
    cursor.text = text := by
  rcases yields with ⟨before, unread, pieces, margin, rest, rfl, same, -, -, -⟩
  exact (between_text before unread).trans same

theorem next_of_cons {token : Token} {tokens : List Token}
    (yields : cursor.Yields text ending (token :: tokens)) :
    ∃ after, Token.next cursor = .ok (some token) after ∧ after.Yields text ending tokens := by
  rcases yields with ⟨before, unread, pieces, margin, rest, rfl, same, division, listed, stops⟩
  cases pieces with
  | nil => cases listed
  | cons piece pieces =>
      rcases piece with ⟨gap, first⟩
      rw [List.map_cons, List.cons.injEq] at listed
      rcases listed with ⟨rfl, rfl⟩
      rcases division.of_cons with ⟨following, rfl, isNext, others⟩
      refine ⟨_, Token.next_of_isNext isNext, _, following, pieces, margin, rest, rfl, ?_, others,
        rfl, ?_⟩
      · rw [← same]
        simp only [List.append_assoc]
      · rw [stops, spelled, List.flatMap_cons, ← spelled]
        simp only [List.append_assoc]

theorem next_of_nil (yields : cursor.Yields text none []) :
    Token.next cursor = .ok none (between text []) := by
  rcases yields with ⟨before, unread, pieces, margin, rest, rfl, same, division, listed, stops⟩
  cases pieces with
  | cons piece pieces => cases listed
  | nil =>
      rcases division.of_nil with ⟨rfl, blank, stuck⟩
      cases stuck with
      | ended =>
          rw [List.append_nil] at same ⊢
          rw [← same]
          exact Token.next_at_end before blank
      | @unknown character others visible unknown =>
          rw [stopFault?] at stops
          split at stops <;> cases stops
      | unclosed unquoted => cases stops

theorem atEnd (text : Text) : (between text []).Yields text none [] := by
  refine ⟨text, [], [], [], [], rfl, List.append_nil text, ?_, rfl, rfl⟩
  exact @MaximalMunch.stop text [] [] (by simp) .ended

end Cursor.Yields

def Fault.isUnterminated : Fault → Bool
  | .problem reported => reported.complaint = .unterminatedString
  | _ => false

/-- A scan that fails at a character fails there again; one that fails at a string has passed over
the rest of the text. -/
theorem Cursor.Yields.next_of_fault {text : Text} {fault : Fault} {cursor : Cursor}
    (yields : cursor.Yields text (some fault) []) :
    ∃ final, Token.next cursor = .error fault final ∧
      (fault.isUnterminated = true ∨ final.Yields text (some fault) []) := by
  rcases yields with ⟨before, unread, pieces, margin, rest, rfl, same, division, listed, stops⟩
  cases pieces with
  | cons piece pieces => cases listed
  | nil =>
      rcases division.of_nil with ⟨rfl, blank, stuck⟩
      change some fault = stopFault? (before ++ [] ++ margin) rest at stops
      rw [List.append_nil] at stops
      cases stuck with
      | ended => cases stops
      | @unknown character others visible unknown =>
          have other : character ≠ '"' := by
            intro quote
            subst quote
            cases unknown
          rw [stopFault?, if_neg other, Option.some.injEq] at stops
          refine ⟨between (before ++ margin) (character :: others), ?_, .inr ?_⟩
          · rw [stops]
            exact Token.next_unclassified before blank visible unknown
          · refine ⟨before ++ margin, character :: others, [], [], character :: others, rfl, ?_,
              @MaximalMunch.stop _ [] _ (by simp) (.unknown visible unknown), rfl, ?_⟩
            · rw [← same, List.append_assoc]
            · change some fault = stopFault? (before ++ margin ++ [] ++ []) (character :: others)
              rw [stops, List.append_nil, List.append_nil, stopFault?, if_neg other]
      | unclosed unquoted =>
          cases stops
          exact ⟨_, Token.next_unterminated before blank unquoted, .inl rfl⟩

namespace TokenStream

/-- The stream gives `tokens` next, one after another, and then ends; with those already read, they
are all the tokens of the text. -/
structure Offers (text : Text) (all : List Token) (ending : Option Fault) (stream : TokenStream)
    (tokens : List Token) : Prop where
  upcoming : ∃ unscanned, stream.cursor.Yields text ending unscanned ∧
    tokens = stream.ahead ++ unscanned
  behind : stream.behind.reverse ++ tokens = all

theorem read_apply (stream : TokenStream) :
    read stream =
      match peek stream with
      | .ok token after => .ok token after.advance
      | .error fault after => .error fault after := by
  cases looked : peek stream with
  | ok token after =>
      change (EStateM.bind peek _) stream = _
      rw [EStateM.bind, looked]
      rfl
  | error fault after =>
      change (EStateM.bind peek _) stream = _
      rw [EStateM.bind, looked]

namespace Offers

variable {text : Text} {all : List Token} {ending : Option Fault} {stream : TokenStream}
  {tokens : List Token}

theorem text_eq (offers : stream.Offers text all ending tokens) : stream.cursor.text = text := by
  rcases offers.upcoming with ⟨unscanned, yields, -⟩
  exact yields.text_eq

theorem peek_of_cons {token : Token} (offers : stream.Offers text all ending (token :: tokens)) :
    ∃ after ahead, peek stream = .ok (some token) after ∧ after.behind = stream.behind ∧
      after.ahead = token :: ahead ∧ after.Offers text all ending (token :: tokens) := by
  rcases offers with ⟨⟨unscanned, yields, listed⟩, behind⟩
  cases scanned : stream.ahead with
  | cons first ahead =>
      rw [scanned, List.cons_append, List.cons.injEq] at listed
      rcases listed with ⟨rfl, rfl⟩
      refine ⟨stream, ahead, ?_, rfl, scanned, ⟨unscanned, yields, ?_⟩, behind⟩
      · rw [peek, scanned]
      · rw [scanned, List.cons_append]
  | nil =>
      rw [scanned, List.nil_append] at listed
      subst listed
      rcases yields.next_of_cons with ⟨cursor, found, others⟩
      refine ⟨{ stream with cursor, ahead := [token] }, [], ?_, rfl, rfl,
        ⟨tokens, others, rfl⟩, behind⟩
      rw [peek, scanned]
      simp only [scanNext, found, scanned, List.nil_append, Option.toList_some]

theorem peek_of_nil (offers : stream.Offers text all none []) :
    peek stream = .ok none { stream with cursor := .between text [] } := by
  rcases offers with ⟨⟨unscanned, yields, listed⟩, -⟩
  obtain ⟨scanned, rfl⟩ := List.append_eq_nil_iff.mp listed.symm
  rw [peek, scanned]
  simp only [scanNext, yields.next_of_nil, scanned, Option.toList_none, List.append_nil]

theorem again_of_nil (offers : stream.Offers text all none []) :
    Offers text all none { stream with cursor := .between text [] } [] := by
  rcases offers with ⟨⟨unscanned, yields, listed⟩, behind⟩
  obtain ⟨scanned, rfl⟩ := List.append_eq_nil_iff.mp listed.symm
  refine ⟨⟨[], .atEnd text, ?_⟩, behind⟩
  rw [scanned, List.append_nil]

theorem peek_of_fault {fault : Fault} (offers : stream.Offers text all (some fault) []) :
    ∃ cursor, peek stream = .error fault { stream with cursor } ∧
      (fault.isUnterminated = true ∨
        Offers text all (some fault) { stream with cursor } []) := by
  rcases offers with ⟨⟨unscanned, yields, listed⟩, behind⟩
  obtain ⟨scanned, rfl⟩ := List.append_eq_nil_iff.mp listed.symm
  rcases yields.next_of_fault with ⟨cursor, failed, again⟩
  refine ⟨cursor, ?_, again.imp_right fun yields => ⟨⟨[], yields, ?_⟩, behind⟩⟩
  · rw [peek, scanned]
    simp only [scanNext, failed, scanned]
  · rw [scanned, List.append_nil]

theorem read_of_cons {token : Token} (offers : stream.Offers text all ending (token :: tokens)) :
    ∃ after, read stream = .ok (some token) after ∧
      after.behind = token :: stream.behind ∧ after.Offers text all ending tokens := by
  rcases offers.peek_of_cons with ⟨seen, ahead, found, behind, scanned, again⟩
  have advanced : seen.advance = { seen with behind := token :: seen.behind, ahead } := by
    rw [advance, scanned]
  refine ⟨seen.advance, ?_, ?_, ?_⟩
  · rw [read_apply, found]
  · rw [advanced, behind]
  · rcases again with ⟨⟨unscanned, yields, listed⟩, whole⟩
    rw [scanned, List.cons_append, List.cons.injEq] at listed
    rcases listed with ⟨-, rfl⟩
    rw [advanced]
    refine ⟨⟨unscanned, yields, rfl⟩, ?_⟩
    rw [← whole, List.reverse_cons, List.append_assoc, List.singleton_append]

end Offers

theorem ofText_offers {text margin rest : Text} {pieces : List (Text × Token)}
    (division : MaximalMunch [] text pieces margin rest) :
    (ofText text).Offers text (pieces.map Prod.snd) (stopFault? (spelled pieces ++ margin) rest)
      (pieces.map Prod.snd) :=
  { upcoming := ⟨_, ⟨[], text, pieces, margin, rest, rfl, rfl, division, rfl, rfl⟩, rfl⟩
    behind := rfl }

end TokenStream

end MessageForms
