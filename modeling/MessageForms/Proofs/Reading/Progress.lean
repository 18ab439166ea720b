import MessageForms.Proofs.Reading.Settling

set_option autoImplicit false

/-! Readers make progress. Two runs of a reader, with different readers for the expressions inside
and different allowances, are followed side by side. As long as the inner readers agree behind the
first token, and the allowances cover what is left there, the runs come to the same, and neither
runs out; what was found lies behind what was read. -/

namespace MessageForms

def Dialect.Raises (dialect : Dialect) (fault : Fault) : Prop :=
  ∃ token, dialect.number token = .error fault ∨ dialect.symbol token = .error fault ∨
    dialect.string token = .error fault

namespace Reading

open TokenStream (Onward Looks)

/-! ### Allowances and inner expressions -/

/-- Two allowances for as many steps as are counted. Equal ones will do for any number of steps if
running out is excused. -/
def Covers (excused : Prop) (allowance allowance' count : Nat) : Prop :=
  (count ≤ allowance ∧ count ≤ allowance') ∨ (allowance = allowance' ∧ excused)

namespace Covers

variable {excused : Prop} {allowance allowance' count fewer : Nat}

theorem mono (covers : Covers excused allowance allowance' count) (less : fewer ≤ count) :
    Covers excused allowance allowance' fewer :=
  covers.imp_left fun enough => ⟨Nat.le_trans less enough.1, Nat.le_trans less enough.2⟩

theorem of_zero (covers : Covers excused 0 allowance' (count + 1)) :
    allowance' = 0 ∧ excused := by
  rcases covers with ⟨impossible, -⟩ | ⟨same, excuse⟩
  · cases impossible
  · exact ⟨same.symm, excuse⟩

theorem of_succ (covers : Covers excused (allowance + 1) allowance' (count + 1)) :
    ∃ less, allowance' = less + 1 ∧ Covers excused allowance less count := by
  rcases covers with ⟨enough, enough'⟩ | ⟨same, excuse⟩
  · exact ⟨allowance' - 1, by omega, .inl ⟨by omega, by omega⟩⟩
  · exact ⟨allowance, same.symm, .inr ⟨rfl, excuse⟩⟩

end Covers

/-- The stream is where an expression can end: at the end of the text, or before a token that ends
expressions. -/
def IsEnded (stream : TokenStream) : Prop :=
  isAtEnd (stream.ahead.head?.map Token.kind) = true ∧
    (stream.ahead = [] → stream.cursor.rest = [])

/-- Two readers of expressions settle on the same from here, which takes a token at least. -/
def Passes (excused : Prop) (expression expression' : Reading Node) (stream : TokenStream) : Prop :=
  Settles excused expression expression'
    (fun _ after => Onward 1 stream after ∧ IsEnded after) stream

/-- The readers of the expressions that lie at least `count` tokens further on settle, and the
allowances cover what is left there. -/
structure Inside (excused : Prop) (expression expression' : Reading Node)
    (allowance allowance' count : Nat) (stream : TokenStream) : Prop where
  passes : ∀ later, Onward count stream later → Passes excused expression expression' later
  covers : Covers excused allowance allowance' (stream.allowance + 1 - count)

theorem Inside.after {excused : Prop} {expression expression' : Reading Node}
    {allowance allowance' count more total : Nat} {stream after : TokenStream}
    (inside : Inside excused expression expression' allowance allowance' count stream)
    (onward : Onward more stream after) (bound : count ≤ more + total := by omega) :
    Inside excused expression expression' allowance allowance' total after where
  passes later again := inside.passes later (onward.trans again bound)
  covers := by
    have less := onward.allowance_le
    exact inside.covers.mono (by omega)

/-! ### Lists -/

section Lists

variable {excused : Prop} {expression expression' : Reading Node} {allowance allowance' : Nat}
  {stream : TokenStream}

theorem settles_moreItems
    (inside : Inside excused expression expression' allowance allowance' 0 stream)
    (delimiters : List TokenKind) (close : Option TokenKind) :
    Settles excused (moreItems expression delimiters close allowance)
      (moreItems expression' delimiters close allowance')
      (fun _ after => Onward 0 stream after) stream := by
  induction allowance generalizing allowance' stream with
  | zero =>
      obtain ⟨rfl, excuse⟩ := inside.covers.of_zero
      exact settles_throw (fun _ => excuse) _
  | succ allowance ih =>
      obtain ⟨allowance', rfl, left⟩ := inside.covers.of_succ
      rw [moreItems.eq_def, moreItems.eq_def]
      apply settles_peekKind.bind
      rintro _ seen ⟨found, rfl, looks⟩
      cases found with
      | none =>
          cases close with
          | none => exact settles_pure looks.onward
          | some expected => exact settles_fail _ _
      | some token =>
          refine Settles.ite (fun _ => settles_pure looks.onward) fun _ => ?_
          refine Settles.ite (fun _ => settles_fail _ _) fun _ => ?_
          apply settles_read.bind
          rintro _ _ ⟨passed, delimited, rfl⟩
          have onward :=
            looks.onward.since (delimited.onward_advance_of_ahead looks.ahead_ne_nil)
          apply settles_peekKind.bind
          rintro _ further ⟨found, rfl, looks'⟩
          have onward := onward.extend looks'.onward
          refine Settles.ite (fun _ => settles_pure onward.weaken) fun _ => ?_
          apply (inside.passes further onward.weaken).bind
          rintro item after ⟨beyond, -⟩
          have onward := onward.extend beyond
          have more := ih ⟨(inside.after onward).passes, left.mono onward.allowance_le⟩
          exact more.bind fun others final again => settles_pure (onward.weaken.extend again)

theorem settles_items
    (inside : Inside excused expression expression' allowance allowance' 0 stream)
    (delimiters : List TokenKind) (close : Option TokenKind) :
    Settles excused (items expression delimiters close allowance)
      (items expression' delimiters close allowance')
      (fun _ after => Onward 0 stream after) stream := by
  apply settles_peekKind.bind
  rintro _ seen ⟨found, rfl, looks⟩
  refine Settles.ite (fun _ => settles_pure looks.onward) fun _ => ?_
  apply (inside.passes seen looks.onward).bind
  rintro first after ⟨beyond, -⟩
  have onward := looks.onward.extend beyond
  have more := settles_moreItems (inside.after onward) delimiters close
  exact more.bind fun others final again => settles_pure (onward.extend again)

variable (inside : Inside excused expression expression' allowance allowance' 1 stream)

include inside

theorem settles_delimitedList (opening : TokenKind) (delimiters : List TokenKind)
    (close : TokenKind) :
    Settles excused (delimitedList expression opening delimiters close allowance)
      (delimitedList expression' opening delimiters close allowance')
      (fun _ after => Onward 1 stream after) stream := by
  apply settles_peekKind.bind
  rintro _ seen ⟨found, rfl, looks⟩
  refine Settles.ite (fun _ => settles_throw nofun _) fun same => ?_
  have opened : seen.ahead ≠ [] := by
    cases found with
    | some token => exact looks.ahead_ne_nil
    | none => exact (same nofun).elim
  apply settles_read.bind
  rintro _ _ ⟨passed, opens, rfl⟩
  have onward := looks.onward.since (opens.onward_advance_of_ahead opened)
  apply (settles_items (inside.after onward) delimiters (some close)).bind
  intro inner behind again
  apply settles_read.bind
  rintro _ _ ⟨after, closes, rfl⟩
  exact settles_pure ((onward.extend again).extend closes.onward_advance)

theorem settles_messageArguments :
    Settles excused (messageArguments expression allowance)
      (messageArguments expression' allowance') (fun _ after => Onward 0 stream after) stream := by
  apply settles_peekKind.bind
  rintro _ seen ⟨found, rfl, looks⟩
  refine Settles.ite (fun _ => ?_) fun _ => settles_pure looks.onward
  exact (settles_delimitedList (inside.after looks.onward) _ _ _).imp fun _ after onward =>
    looks.onward.extend onward

end Lists

/-! ### Modifiers -/

/-- An attempt at a modifier that gives none may have read on; what is scanned then does not matter
once it goes back. -/
structure Attempted (stream : TokenStream) (found : Option Node) (after : TokenStream) : Prop where
  onward : Onward found.toList.length stream after
  goesBack : found = none → stream.IsLazy → (after.moveTo stream.position).IsLazy

/-- What is left of a choice between attempts: nothing is read if none of them gives anything. -/
structure Matched (stream : TokenStream) (found : Option Node) (after : TokenStream) : Prop where
  onward : Onward found.toList.length stream after
  position_eq : found = none → after.position = stream.position

section Modifiers

variable {excused : Prop} {dialect : Dialect} {expression expression' : Reading Node}
  {allowance allowance' : Nat} {stream : TokenStream}

theorem attempted_some {after : TokenStream} (onward : Onward 1 stream after) (node : Node) :
    Attempted stream (some node) after :=
  ⟨onward, nofun⟩

theorem attempted_none {found : Option Token} {after : TokenStream}
    (looks : Looks stream found after) : Attempted stream none after where
  onward := looks.onward
  goesBack _ isLazy := by
    rw [← looks.position_eq, TokenStream.moveTo_position]
    exact looks.onward.keepsLazy isLazy

theorem attempted_dot {dot : Token} {found : Option Token} {seen after : TokenStream}
    (isDot : dot.kind = .dot) (dotted : Looks stream (some dot) seen)
    (looks : Looks seen.advance found after) (other : ∀ name ∈ found, name.kind ≠ .symbol) :
    Attempted stream none after where
  onward := dotted.onward_advance.extend looks.onward
  goesBack _ isLazy := by
    apply TokenStream.isLazy_moveTo_of_dot isDot other
    · rw [looks.behind, dotted.behind_advance]
    · exact looks.ahead_eq (dotted.onward.keepsLazy isLazy).length_advance

theorem settles_literal? (raises : dialect.Raises .exhausted → excused) :
    Settles excused (literal? dialect) (literal? dialect) (Attempted stream) stream := by
  apply settles_peek.bind
  intro found seen looks
  cases found with
  | none => exact settles_pure (attempted_none looks)
  | some token =>
      have atom {understood : Token → Except Fault Atom}
          (excuse : understood token = .error .exhausted → excused) :
          Settles excused (do return some (.atom (← takeAtom understood token)))
            (do return some (.atom (← takeAtom understood token))) (Attempted stream) seen :=
        (settles_takeAtom excuse looks.ahead_ne_nil).bind fun atom after onward =>
          settles_pure (attempted_some (looks.onward.since onward) _)
      dsimp only
      cases token.kind with
      | number => exact atom fun known => raises ⟨token, .inl known⟩
      | string => exact atom fun known => raises ⟨token, .inr (.inr known)⟩
      | openBrace | closeBrace | openParen | closeParen | dot | semicolon | comma | symbol =>
          exact settles_pure (attempted_none looks)

variable (inside : Inside excused expression expression' allowance allowance' 1 stream)

include inside

theorem settles_opened (opening : TokenKind) (delimiters : List TokenKind) (close : TokenKind)
    (form : List Node → Position → Node) :
    Settles excused
      (do
        match ← TokenStream.peek with
        | none => return none
        | some token =>
            if token.kind = opening then
              let inner ← delimitedList expression opening delimiters close allowance
              return some (form inner token.position)
            else return none)
      (do
        match ← TokenStream.peek with
        | none => return none
        | some token =>
            if token.kind = opening then
              let inner ← delimitedList expression' opening delimiters close allowance'
              return some (form inner token.position)
            else return none)
      (Attempted stream) stream := by
  apply settles_peek.bind
  intro found seen looks
  cases found with
  | none => exact settles_pure (attempted_none looks)
  | some token =>
      refine Settles.ite (fun _ => ?_) fun _ => settles_pure (attempted_none looks)
      exact (settles_delimitedList (inside.after looks.onward) _ _ _).bind
        fun inner after onward => settles_pure (attempted_some (looks.onward.since onward) _)

theorem settles_parenthesized? :
    Settles excused (parenthesized? expression allowance) (parenthesized? expression' allowance')
      (Attempted stream) stream :=
  settles_opened inside .openParen argumentDelimiters .closeParen .parenthesized

theorem settles_braced? :
    Settles excused (braced? expression allowance) (braced? expression' allowance')
      (Attempted stream) stream :=
  settles_opened inside .openBrace bodyDelimiters .closeBrace .braced

theorem settles_send {later : TokenStream} (onward : Onward 1 stream later)
    (send : List Node → Node) :
    Settles excused (do return some (send (← messageArguments expression allowance)))
      (do return some (send (← messageArguments expression' allowance'))) (Attempted stream)
      later :=
  (settles_messageArguments (inside.after onward)).bind fun _ _ more =>
    settles_pure (attempted_some (onward.extend more) _)

/-- Behind a dot that starts no message, one token more is seen, and not read. -/
theorem settles_messageSend? (raises : dialect.Raises .exhausted → excused) :
    Settles excused (messageSend? dialect expression allowance)
      (messageSend? dialect expression' allowance') (Attempted stream) stream := by
  have known (token : Token) (same : dialect.symbol token = .error .exhausted) : excused :=
    raises ⟨token, .inr (.inl same)⟩
  apply settles_peek.bind
  intro found seen looks
  cases found with
  | none => exact settles_pure (attempted_none looks)
  | some token =>
      dsimp only
      cases kind : token.kind with
      | dot =>
          apply settles_read.bind
          rintro _ _ ⟨passed, dotted, rfl⟩
          obtain rfl := dotted.eq_of_ahead looks.ahead_ne_nil
          apply settles_peek.bind
          intro found after looks'
          cases found with
          | none => exact settles_pure (attempted_dot kind looks looks' nofun)
          | some name =>
              refine Settles.ite (fun _ => ?_) fun other => settles_pure ?_
              · apply (settles_takeAtom (known name) looks'.ahead_ne_nil).bind
                intro selector behind taken
                have onward := (looks.onward_advance.extend looks'.onward).since taken
                exact settles_send inside onward _
              · exact attempted_dot kind looks looks' (by rintro _ ⟨⟩; exact other)
      | symbol =>
          apply (settles_takeAtom (known token) looks.ahead_ne_nil).bind
          intro selector named taken
          apply settles_peekKind.bind
          rintro _ behind ⟨found, rfl, looks'⟩
          have onward := (looks.onward.since taken).extend looks'.onward
          refine Settles.ite (fun _ => ?_) fun _ => settles_send inside onward _
          apply (inside.passes behind onward).bind
          rintro target after ⟨beyond, -⟩
          exact settles_send inside (onward.extend beyond) _
      | openBrace | closeBrace | openParen | closeParen | semicolon | comma | number | string =>
          exact settles_pure (attempted_none looks)

end Modifiers

/-! ### Choice -/

section Choice

variable {excused : Prop} {stream after final : TokenStream} {found : Option Node}

theorem Attempted.restored (attempted : Attempted stream none after) :
    TokenStream.restore stream.position after = .ok () (after.moveTo stream.position) ∧
      Matched stream none (after.moveTo stream.position) := by
  have within : stream.position ≤ after.scanned.length :=
    Nat.le_trans attempted.onward.position_le after.position_le
  have place := TokenStream.position_moveTo_of_le within
  refine ⟨TokenStream.restore_of_le within, ?_, fun _ => place⟩
  refine ⟨Nat.le_of_eq place.symm, ?_, attempted.goesBack rfl⟩
  rw [TokenStream.reach_moveTo]
  exact attempted.onward.within

theorem Matched.trans (matched : Matched stream none after) (next : Matched after found final) :
    Matched stream found final where
  onward := matched.onward.since next.onward
  position_eq absent := (next.position_eq absent).trans (matched.position_eq rfl)

theorem settles_savingPositionIf {attempt attempt' : Reading (Option Node)}
    (attempts : Settles excused attempt attempt' (Attempted stream) stream) :
    Settles excused (TokenStream.savingPositionIf Option.isNone attempt)
      (TokenStream.savingPositionIf Option.isNone attempt') (Matched stream) stream := by
  let goBack (found : Option Node) : Reading (Option Node) := do
    if found.isNone then TokenStream.restore stream.position
    return found
  have decided : Settles excused (attempt >>= goBack) (attempt' >>= goBack) (Matched stream)
      stream := by
    apply attempts.bind
    intro found after attempted
    cases found with
    | some node => exact settles_pure ⟨attempted.onward, nofun⟩
    | none =>
        obtain ⟨restored, matched⟩ := attempted.restored
        exact settles_of_ok (bind_of_ok restored) matched
  exact ⟨decided.same, decided.holds, decided.finishes⟩

theorem settles_firstMatch {attempt attempt' : Reading (Option Node)}
    {others others' : List (Reading (Option Node))}
    (attempts : Settles excused attempt attempt' (Attempted stream) stream)
    (rest : ∀ later, Onward 0 stream later →
      Settles excused (firstMatch others) (firstMatch others') (Matched later) later) :
    Settles excused (firstMatch (attempt :: others)) (firstMatch (attempt' :: others'))
      (Matched stream) stream := by
  apply (settles_savingPositionIf attempts).bind
  intro found after matched
  cases found with
  | some node => exact settles_pure matched
  | none => exact (rest after matched.onward).imp fun _ _ => matched.trans

theorem settles_modifier? {dialect : Dialect} {expression expression' : Reading Node}
    {allowance allowance' : Nat}
    (inside : Inside excused expression expression' allowance allowance' 1 stream)
    (raises : dialect.Raises .exhausted → excused) :
    Settles excused (modifier? dialect expression allowance)
      (modifier? dialect expression' allowance') (Matched stream) stream := by
  apply settles_firstMatch (settles_messageSend? inside raises)
  intro later onward
  apply settles_firstMatch (settles_literal? raises)
  intro later onward'
  have onward := onward.extend onward'
  apply settles_firstMatch (settles_parenthesized? (inside.after onward))
  intro later onward'
  apply settles_firstMatch (settles_braced? (inside.after (onward.extend onward')))
  intro later _
  exact settles_pure ⟨.refl later, fun _ => rfl⟩

end Choice

/-! ### Expressions -/

section Expressions

variable {excused : Prop} {dialect : Dialect} {expression expression' : Reading Node}
  {allowance allowance' : Nat} {stream : TokenStream}

theorem settles_modifiers {modifier modifier' : Reading (Option Node)}
    (found : ∀ later, Onward 0 stream later →
      Settles excused modifier modifier' (Matched later) later)
    (covers : Covers excused allowance allowance' (stream.allowance + 1)) :
    Settles excused (modifiers modifier allowance) (modifiers modifier' allowance')
      (fun _ after => Onward 0 stream after) stream := by
  induction allowance generalizing allowance' stream with
  | zero =>
      obtain ⟨rfl, excuse⟩ := covers.of_zero
      exact settles_throw (fun _ => excuse) _
  | succ allowance ih =>
      obtain ⟨allowance', rfl, left⟩ := covers.of_succ
      apply (found stream (.refl stream)).bind
      intro next after matched
      cases next with
      | none => exact settles_pure matched.onward
      | some node =>
          have onward : Onward 1 stream after := matched.onward
          have more := ih (fun later again => found later (onward.weaken.extend again))
            (left.mono onward.allowance_le)
          exact more.bind fun others final again => settles_pure (onward.weaken.extend again)

theorem settles_withOperator
    (inside : Inside excused expression expression' allowance allowance' 0 stream)
    (raises : dialect.Raises .exhausted → excused) (left : Node) :
    Settles excused (withOperator dialect expression left) (withOperator dialect expression' left)
      (fun _ after => Onward 0 stream after) stream := by
  apply settles_peek.bind
  intro found seen looks
  cases found with
  | none => exact settles_pure looks.onward
  | some token =>
      refine Settles.ite (fun _ => ?_) fun _ => settles_pure looks.onward
      apply (settles_takeAtom (fun known => raises ⟨token, .inr (.inl known)⟩)
        looks.ahead_ne_nil).bind
      intro operator behind taken
      have onward := looks.onward.extend taken
      apply (inside.passes behind onward).bind
      rintro right after ⟨beyond, -⟩
      exact settles_pure (onward.extend beyond)

theorem isEnded_of_looks {found : Option Token} {seen : TokenStream}
    (looks : Looks stream found seen) (ends : isAtEnd (found.map Token.kind) = true) :
    IsEnded seen := by
  refine ⟨?_, fun absent => looks.finished ?_⟩
  · rw [looks.next]
    exact ends
  · rw [← looks.next, absent]
    rfl

theorem settles_expressionStep
    (inside : Inside excused expression expression' allowance allowance' 1 stream)
    (raises : dialect.Raises .exhausted → excused) :
    Passes excused (expressionStep dialect expression allowance)
      (expressionStep dialect expression' allowance') stream := by
  apply (settles_modifier? inside raises).bind
  intro found after matched
  cases found with
  | none => exact settles_fail _ _
  | some argument =>
      have onward : Onward 1 stream after := matched.onward
      apply (settles_withOperator (inside.after onward) raises argument).bind
      intro first after again
      have onward := onward.extend again
      apply settles_peekKind.bind
      rintro _ seen ⟨found, rfl, looks⟩
      have onward := onward.extend looks.onward
      refine Settles.ite (fun ends => ?_) fun _ => ?_
      · exact settles_pure ⟨onward, isEnded_of_looks looks ends⟩
      have behind : Inside excused expression expression' allowance allowance' 0 seen :=
        inside.after onward
      apply (settles_modifiers
        (fun later again => settles_modifier? (behind.after again) raises) behind.covers).bind
      intro others after again
      have onward := onward.extend again
      apply settles_peekKind.bind
      rintro _ seen ⟨found, rfl, looks⟩
      have onward := onward.extend looks.onward
      refine Settles.ite (fun ends => ?_) fun _ => ?_
      · exact settles_pure ⟨onward, isEnded_of_looks looks ends⟩
      exact Settles.ite (fun _ => settles_fail _ _) fun _ => settles_fail _ _

end Expressions

/-- An expression takes a token at least and ends where expressions end; any allowances that cover
what is left come to the same. -/
theorem passes_expressionWithin {excused : Prop} {dialect : Dialect} {allowance allowance' : Nat}
    {stream : TokenStream} (raises : dialect.Raises .exhausted → excused)
    (covers : Covers excused allowance allowance' (stream.allowance + 1)) :
    Passes excused (expressionWithin dialect allowance) (expressionWithin dialect allowance')
      stream := by
  induction allowance generalizing allowance' stream with
  | zero =>
      obtain ⟨rfl, excuse⟩ := covers.of_zero
      exact settles_throw (fun _ => excuse) _
  | succ allowance ih =>
      obtain ⟨allowance', rfl, left⟩ := covers.of_succ
      refine settles_expressionStep ⟨fun later onward => ?_, left⟩ raises
      exact ih (left.mono onward.allowance_le)

theorem onward_of_expression {dialect : Dialect} {node : Node} {stream after : TokenStream}
    (done : expression dialect stream = .ok node after) :
    Onward 1 stream after ∧ IsEnded after := by
  have passes : Passes True (expressionWithin dialect (stream.allowance + 1))
      (expressionWithin dialect (stream.allowance + 1)) stream :=
    passes_expressionWithin (fun _ => trivial) (.inr ⟨rfl, trivial⟩)
  exact passes.holds node after done

end Reading

end MessageForms
