import MessageForms.Proofs.Token.Cache

set_option autoImplicit false

/-! How far a stream has got. A step onward reads at least so many tokens, and leaves no more to
read than there was. This is said of every stream, also of one that no text has led to: a token
takes up a character at least, wherever the cursor stands. -/

namespace MessageForms

/-! ### Scanning from anywhere -/

namespace Cursor

theorem rest_readWhile (accepts : Char → Bool) (cursor : Cursor) :
    (cursor.readWhile accepts).2.rest = cursor.rest.dropWhile accepts := by
  rw [readWhile, advanceBy_rest]
  calc cursor.rest.drop (cursor.rest.takeWhile accepts).length
      = (cursor.rest.takeWhile accepts ++ cursor.rest.dropWhile accepts).drop
          (cursor.rest.takeWhile accepts).length := by rw [List.takeWhile_append_dropWhile]
    _ = cursor.rest.dropWhile accepts := List.drop_left

theorem rest_readWhile_le (accepts : Char → Bool) (cursor : Cursor) :
    (cursor.readWhile accepts).2.rest.length ≤ cursor.rest.length := by
  rw [rest_readWhile]
  exact (List.dropWhile_suffix accepts).length_le

theorem rest_readWhile_lt {accepts : Char → Bool} {cursor : Cursor} {character : Char}
    (next : cursor.peek = some character) (accepted : accepts character = true) :
    (cursor.readWhile accepts).2.rest.length < cursor.rest.length := by
  obtain ⟨others, following⟩ := List.head?_eq_some_iff.mp next
  have bound := (List.dropWhile_suffix accepts (l := others)).length_le
  rw [rest_readWhile, following, List.dropWhile_cons_of_pos accepted, List.length_cons]
  omega

theorem rest_advance_lt {cursor : Cursor} {character : Char} (next : cursor.peek = some character) :
    cursor.advance.rest.length < cursor.rest.length := by
  obtain ⟨others, following⟩ := List.head?_eq_some_iff.mp next
  rw [advance_rest, following, List.tail_cons, List.length_cons]
  exact Nat.lt_succ_self _

end Cursor

namespace Token

/-- The scan of a token passes over a character, or fails with a fault of its own. -/
def Scans (reader : Scanning Token) (cursor : Cursor) : Prop :=
  match reader cursor with
  | .ok _ after => after.rest.length < cursor.rest.length
  | .error fault _ => fault ≠ .exhausted

variable {cursor : Cursor} {character : Char}

theorem scans_run (kind : TokenKind) {accepts : Char → Bool}
    (next : cursor.peek = some character) (accepted : accepts character = true) :
    Scans (scanRun kind accepts) cursor :=
  Cursor.rest_readWhile_lt next accepted

theorem scans_symbol (next : cursor.peek = some character) : Scans scanSymbol cursor := by
  unfold Scans scanSymbol
  rw [next]
  dsimp only
  by_cases letter : Text.isLetter character = true
  · rw [if_pos letter]
    apply scans_run .symbol next
    rw [Text.isWordPart, letter, Bool.true_or, Bool.true_or]
  · rw [if_neg letter]
    by_cases operator : Text.isOperator character = true
    · rw [if_pos operator]
      exact scans_run .symbol next operator
    · rw [if_neg operator]
      intro impossible
      cases impossible

theorem scans_string (next : cursor.peek = some character) : Scans scanString cursor := by
  unfold Scans scanString
  have opened := Cursor.rest_advance_lt next
  have passed := Cursor.rest_readWhile_le (fun other => decide (other ≠ '"')) cursor.advance
  dsimp only
  cases ended : (cursor.advance.readWhile fun other => decide (other ≠ '"')).2.peek with
  | none =>
      intro impossible
      cases impossible
  | some closing =>
      have closed := Cursor.rest_advance_lt ended
      dsimp only
      omega

theorem scans_scan {kind : TokenKind} (next : cursor.peek = some character)
    (starts : TokenKind.ofChar? character = some kind) : Scans (scan kind) cursor := by
  have punctuation (kind : TokenKind) : Scans (scanPunctuation kind) cursor :=
    Cursor.rest_advance_lt next
  cases kind with
  | symbol => exact scans_symbol next
  | string => exact scans_string next
  | number =>
      apply scans_run .number next
      rcases TokenKind.ofChar?_cases starts with
        marked | ⟨impossible, -⟩ | ⟨impossible, -⟩ | ⟨-, digit⟩ | ⟨impossible, -⟩
      · cases marked
      · cases impossible
      · cases impossible
      · exact digit
      · cases impossible
  | openBrace | closeBrace | openParen | closeParen | dot | semicolon | comma =>
      exact punctuation _

theorem next_passes (cursor : Cursor) :
    match next cursor with
    | .ok (some _) after => after.rest.length < cursor.rest.length
    | .ok none after => after.rest = []
    | .error fault _ => fault ≠ .exhausted := by
  have bound := Cursor.rest_readWhile_le Text.isBlank cursor
  unfold next
  dsimp only
  cases first : (cursor.readWhile Text.isBlank).2.peek with
  | none => exact List.head?_eq_none_iff.mp first
  | some character =>
      dsimp only
      cases starts : TokenKind.ofChar? character with
      | none =>
          intro impossible
          cases impossible
      | some kind =>
          have scanned := scans_scan first starts
          unfold Scans at scanned
          dsimp only
          cases outcome : scan kind (cursor.readWhile Text.isBlank).2 with
          | ok token after =>
              rw [outcome] at scanned
              exact Nat.lt_of_lt_of_le scanned bound
          | error fault after =>
              rw [outcome] at scanned
              exact scanned

end Token

namespace TokenStream

/-! ### The reach of a stream -/

/-- The number of tokens scanned and of characters left. It is never exceeded by the position. -/
def reach (stream : TokenStream) : Nat :=
  stream.scanned.length + stream.cursor.rest.length

theorem reach_eq (stream : TokenStream) : stream.reach = stream.position + stream.allowance := by
  rw [reach, allowance, scanned, List.length_append, List.length_reverse, position, Nat.add_assoc]

@[simp] theorem cursor_advance (stream : TokenStream) : stream.advance.cursor = stream.cursor := by
  unfold advance
  split <;> rfl

@[simp] theorem cursor_moveTo (checkpoint : Nat) (stream : TokenStream) :
    (stream.moveTo checkpoint).cursor = stream.cursor := by
  unfold moveTo
  split <;> rfl

@[simp] theorem reach_advance (stream : TokenStream) : stream.advance.reach = stream.reach := by
  rw [reach, scanned_advance, cursor_advance, reach]

@[simp] theorem reach_moveTo (checkpoint : Nat) (stream : TokenStream) :
    (stream.moveTo checkpoint).reach = stream.reach := by
  rw [reach, scanned_moveTo, cursor_moveTo, reach]

theorem position_le_advance (stream : TokenStream) : stream.position ≤ stream.advance.position := by
  unfold advance
  split
  · exact Nat.le_refl _
  · exact Nat.le_succ _

theorem moveTo_position (stream : TokenStream) : stream.moveTo stream.position = stream := by
  rw [moveTo, if_pos (Nat.le_refl _), Nat.sub_self]
  rfl

/-- One token at most is scanned and not read, except where an attempt at a message went back from
the token behind a dot, which is no symbol then. -/
def IsLazy (stream : TokenStream) : Prop :=
  stream.ahead.length ≤ 1 ∨
    ∃ dot other, stream.ahead = [dot, other] ∧ dot.kind = .dot ∧ other.kind ≠ .symbol

theorem IsLazy.length_advance {stream : TokenStream} (isLazy : stream.IsLazy) :
    stream.advance.ahead.length ≤ 1 := by
  unfold advance
  rcases isLazy with short | ⟨dot, other, scanned, -, -⟩
  · split
    · exact short
    · rename_i token ahead scanned
      rw [scanned, List.length_cons] at short
      dsimp only
      omega
  · rw [scanned]
    exact Nat.le_refl 1

theorem moveTo_of_behind {stream seen : TokenStream} {token : Token}
    (behind : seen.behind = token :: stream.behind) :
    seen.moveTo stream.position =
      { behind := stream.behind, ahead := token :: seen.ahead, cursor := seen.cursor } := by
  have place : seen.position = stream.position + 1 := congrArg List.length behind
  rw [moveTo, if_pos (by omega), place, Nat.add_sub_cancel_left, behind]
  rfl

/-- Going back from the token behind a dot, or from the end of the text there. -/
theorem isLazy_moveTo_of_dot {stream seen : TokenStream} {dot : Token} {found : Option Token}
    (isDot : dot.kind = .dot) (other : ∀ name ∈ found, name.kind ≠ .symbol)
    (behind : seen.behind = dot :: stream.behind) (ahead : seen.ahead = found.toList) :
    (seen.moveTo stream.position).IsLazy := by
  rw [moveTo_of_behind behind, ahead]
  cases found with
  | none => exact .inl (Nat.le_refl 1)
  | some name => exact .inr ⟨dot, name, rfl, isDot, other name rfl⟩

/-! ### Steps onward -/

/-- The second stream is at least `count` tokens further on than the first. -/
structure Onward (count : Nat) (stream after : TokenStream) : Prop where
  further : stream.position + count ≤ after.position
  within : after.reach ≤ stream.reach
  keepsLazy : stream.IsLazy → after.IsLazy

namespace Onward

variable {count more : Nat} {stream after final : TokenStream}

theorem refl (stream : TokenStream) : Onward 0 stream stream :=
  ⟨Nat.le_refl _, Nat.le_refl _, id⟩

theorem trans (onward : Onward count stream after) (next : Onward more after final) {total : Nat}
    (bound : total ≤ count + more) : Onward total stream final where
  further := by
    have first := onward.further
    have second := next.further
    omega
  within := Nat.le_trans next.within onward.within
  keepsLazy isLazy := next.keepsLazy (onward.keepsLazy isLazy)

theorem extend (onward : Onward count stream after) (next : Onward more after final) :
    Onward count stream final :=
  onward.trans next (Nat.le_add_right _ _)

theorem since (onward : Onward count stream after) (next : Onward more after final) :
    Onward more stream final :=
  onward.trans next (Nat.le_add_left _ _)

theorem weaken (onward : Onward count stream after) : Onward 0 stream after :=
  onward.since (.refl after)

theorem position_le (onward : Onward count stream after) : stream.position ≤ after.position :=
  onward.weaken.further

theorem position_lt (onward : Onward 1 stream after) : stream.position < after.position :=
  onward.further

theorem allowance_le (onward : Onward count stream after) :
    after.allowance + count ≤ stream.allowance := by
  have further := onward.further
  have within := onward.within
  rw [reach_eq, reach_eq] at within
  omega

end Onward

/-- What is left by looking at the next token: the same stream, or one with that token scanned. -/
structure Looks (stream : TokenStream) (found : Option Token) (after : TokenStream) : Prop where
  behind : after.behind = stream.behind
  within : after.reach ≤ stream.reach
  scans : after = stream ∨ (stream.ahead = [] ∧ after.ahead = found.toList)
  next : after.ahead.head? = found
  finished : found = none → after.cursor.rest = []

namespace Looks

variable {found : Option Token} {stream after : TokenStream}

theorem position_eq (looks : Looks stream found after) : after.position = stream.position :=
  congrArg List.length looks.behind

theorem ahead_ne_nil {token : Token} (looks : Looks stream (some token) after) :
    after.ahead ≠ [] := by
  intro absent
  have next := looks.next
  rw [absent] at next
  cases next

theorem eq_of_ahead (looks : Looks stream found after) (seen : stream.ahead ≠ []) :
    after = stream :=
  looks.scans.resolve_right fun scanned => seen scanned.1

theorem onward (looks : Looks stream found after) : Onward 0 stream after where
  further := Nat.le_of_eq looks.position_eq.symm
  within := looks.within
  keepsLazy isLazy := by
    rcases looks.scans with rfl | ⟨-, fresh⟩
    · exact isLazy
    · unfold IsLazy
      rw [fresh]
      exact .inl Option.length_toList_le

theorem ahead_eq (looks : Looks stream found after) (short : stream.ahead.length ≤ 1) :
    after.ahead = found.toList := by
  rcases looks.scans with rfl | ⟨-, fresh⟩
  · rw [← looks.next]
    match scanned : after.ahead with
    | [] => rfl
    | [token] => rfl
    | _ :: _ :: _ =>
        rw [scanned] at short
        simp only [List.length_cons] at short
        omega
  · exact fresh

theorem onward_advance (looks : Looks stream found after) : Onward 0 stream after.advance := by
  refine ⟨?_, ?_, fun isLazy => .inl (looks.onward.keepsLazy isLazy).length_advance⟩
  · rw [← looks.position_eq]
    exact position_le_advance after
  · rw [reach_advance]
    exact looks.within

theorem onward_advance_of_ahead (looks : Looks stream found after) (seen : stream.ahead ≠ []) :
    Onward 1 stream after.advance := by
  refine { looks.onward_advance with further := ?_ }
  obtain ⟨token, others, scanned⟩ := List.exists_cons_of_ne_nil seen
  rw [looks.eq_of_ahead seen, advance, scanned]
  exact Nat.le_refl _

theorem behind_advance {token : Token} (looks : Looks stream (some token) after) :
    after.advance.behind = token :: stream.behind := by
  obtain ⟨others, scanned⟩ := List.head?_eq_some_iff.mp looks.next
  rw [advance, scanned, looks.behind]

end Looks

/-- With no token ahead the next one is scanned. It takes a character at least, so the reach does
not grow. -/
theorem looks_of_next {stream : TokenStream} {found : Option Token} {cursor : Cursor}
    (scanned : stream.ahead = []) (outcome : Token.next stream.cursor = .ok found cursor) :
    Looks stream found { stream with cursor, ahead := found.toList } := by
  have passes := Token.next_passes stream.cursor
  rw [outcome] at passes
  refine ⟨rfl, ?_, .inr ⟨scanned, rfl⟩, ?_, ?_⟩
  · rw [reach_eq, reach_eq, allowance, allowance, scanned]
    change stream.position + (found.toList.length + cursor.rest.length) ≤
      stream.position + (0 + stream.cursor.rest.length)
    cases found with
    | none =>
        rw [show cursor.rest = [] from passes]
        exact Nat.add_le_add_left (Nat.zero_le _) _
    | some token =>
        change cursor.rest.length < stream.cursor.rest.length at passes
        rw [Option.toList_some, List.length_singleton]
        omega
  · cases found <;> rfl
  · intro ended
    subst ended
    exact passes

/-- Looking at the next token scans it if need be, and cannot run out of an allowance. -/
theorem peek_looks (stream : TokenStream) :
    match peek stream with
    | .ok found after => Looks stream found after
    | .error fault _ => fault ≠ .exhausted := by
  cases scanned : stream.ahead with
  | cons token others =>
      rw [peek, scanned]
      refine ⟨rfl, Nat.le_refl _, .inl rfl, ?_, ?_⟩
      · rw [scanned, List.head?_cons]
      · intro impossible
        cases impossible
  | nil =>
      rw [peek, scanned]
      dsimp only
      rw [scanNext]
      cases outcome : Token.next stream.cursor with
      | error fault cursor =>
          have passes := Token.next_passes stream.cursor
          rw [outcome] at passes
          exact passes
      | ok found cursor =>
          dsimp only
          rw [scanned, List.nil_append]
          exact looks_of_next scanned outcome

end TokenStream

end MessageForms
