import MessageForms.Proofs.Token.Repeated
import MessageForms.Reading.Expression

set_option autoImplicit false

/-! The attempts at a modifier are made one after another, each going back if it gives none, and
come to what two tokens of lookahead decide. The next token selects the attempt; only behind a dot
does it take one token more, since a dot without a symbol behind it starts nothing. All of this is
said of any stream and of any reader for the expressions inside. -/

namespace MessageForms

namespace TokenStream

/-- The next token and the one behind it; `none` from the end of the text on. The first of them is
passed over. -/
def nextTwo : Reading (Option Token × Option Token) := do
  let first ← read
  let second ← peek
  return (first, second)

theorem exists_of_nextTwo {stream after : TokenStream} {first second : Option Token}
    (looked : nextTwo stream = .ok (first, second) after) :
    ∃ seen, peek stream = .ok first seen ∧ peek seen.advance = .ok second after := by
  obtain ⟨found, passed, done, rest⟩ := exists_of_bind_ok looked
  rw [read_apply] at done
  cases shown : peek stream with
  | error fault seen =>
      rw [shown] at done
      cases done
  | ok token seen =>
      rw [shown] at done
      cases done
      obtain ⟨other, final, behind, same⟩ := exists_of_bind_ok rest
      cases same
      exact ⟨seen, rfl, behind⟩

theorem nextTwo_of_peek {stream seen after : TokenStream} {first second : Option Token}
    (looked : peek stream = .ok first seen) (behind : peek seen.advance = .ok second after) :
    nextTwo stream = .ok (first, second) after := by
  have passed : read stream = .ok first seen.advance := by rw [read_apply, looked]
  rw [nextTwo, bind_of_ok passed, bind_of_ok behind]
  rfl

theorem looks_of_peek {stream seen : TokenStream} {found : Option Token}
    (looked : peek stream = .ok found seen) : Looks stream found seen := by
  have looks := peek_looks stream
  rw [looked] at looks
  exact looks

theorem peek_again {stream seen : TokenStream} {found : Option Token}
    (looked : peek stream = .ok found seen) : peek seen = .ok found seen := by
  rcases peek_again_or_ended stream with ⟨token, after, first, second⟩ | ⟨ending, after, first⟩
  · rw [looked] at first
    cases first
    exact second
  · rw [looked] at first
    cases ending with
    | some fault => cases first
    | none =>
        cases first
        have ends : peek stream = Token.ended none seen := looked
        exact peek_again_of_ended ends

end TokenStream

namespace Reading

open TokenStream (peek read nextTwo savingPositionIf)

/-! ### Alternatives -/

/-- The ways to read a modifier. -/
inductive Attempt where
  | message
  | literal
  | parenthesized
  | braced
deriving DecidableEq

namespace Attempt

def all : List Attempt :=
  [message, literal, parenthesized, braced]

def run (dialect : Dialect) (expression : Reading Node) (allowance : Nat) :
    Attempt → Reading (Option Node)
  | message => messageSend? dialect expression allowance
  | literal => literal? dialect
  | parenthesized => parenthesized? expression allowance
  | braced => braced? expression allowance

def ofKind? : TokenKind → Option Attempt
  | .dot | .symbol => some message
  | .number | .string => some literal
  | .openParen => some parenthesized
  | .openBrace => some braced
  | .semicolon | .comma | .closeBrace | .closeParen => none

theorem mem_all (attempt : Attempt) : attempt ∈ all := by
  cases attempt <;> decide

theorem ofKind?_eq_none_iff (kind : TokenKind) :
    ofKind? kind = none ↔ kind.endsExpression = true := by
  cases kind <;> decide

end Attempt

/-- With these two tokens next, or none of them, no modifier starts. -/
inductive StartsNothing : Option Token → Option Token → Prop where
  | ended (second : Option Token) : StartsNothing none second
  | terminator {token : Token} (ends : token.kind.endsExpression = true)
      (second : Option Token) : StartsNothing (some token) second
  | strayDot {dot : Token} {second : Option Token} (isDot : dot.kind = .dot)
      (other : ∀ name ∈ second, name.kind ≠ .symbol) : StartsNothing (some dot) second

/-- The attempt decides the outcome by itself: it gives a node or fails, whatever would be tried
behind it, and all others would give nothing. -/
structure Attempt.Decides (dialect : Dialect) (expression : Reading Node) (allowance : Nat)
    (stream : TokenStream) (attempt : Attempt) : Prop where
  outcome_eq : modifier? dialect expression allowance stream =
    attempt.run dialect expression allowance stream
  finds : ∀ after, attempt.run dialect expression allowance stream ≠ .ok none after
  later_unheard : ∀ earlier later, all = earlier ++ attempt :: later →
    ∀ others : List (Reading (Option Node)),
      firstMatch (earlier.map (Attempt.run dialect expression allowance) ++
          attempt.run dialect expression allowance :: others) stream =
        attempt.run dialect expression allowance stream
  others_refuse : ∀ other, other ≠ attempt →
    ∃ after, other.run dialect expression allowance stream = .ok none after ∧
      after.position = stream.position

/-- The choice between the attempts is made by the next two tokens. -/
structure ChosenBy (dialect : Dialect) (expression : Reading Node) (allowance : Nat)
    (stream : TokenStream) (first second : Option Token) : Prop where
  nothing_iff : (∃ after, modifier? dialect expression allowance stream = .ok none after) ↔
    StartsNothing first second
  stays : ∀ after, modifier? dialect expression allowance stream = .ok none after →
    after.position = stream.position
  decides : ¬ StartsNothing first second →
    ∃ token attempt, first = some token ∧ Attempt.ofKind? token.kind = some attempt ∧
      attempt.Decides dialect expression allowance stream

/-! ### Ordered choice -/

section Choice

variable {stream : TokenStream} {reader : Reading (Option Node)}
  {others : List (Reading (Option Node))}

/-- An attempt that gives none and stays in place is as if it were not made. -/
theorem firstMatch_of_none (nothing : reader stream = .ok none stream) :
    firstMatch (reader :: others) stream = firstMatch others stream := by
  have back := TokenStream.restore_of_le (TokenStream.position_le stream)
  rw [TokenStream.moveTo_position] at back
  have restored : savingPositionIf Option.isNone reader stream = .ok none stream := by
    rw [TokenStream.savingPositionIf_apply, bind_of_ok nothing, if_pos Option.isNone_none,
      bind_of_ok back]
    rfl
  rw [firstMatch, bind_of_ok restored]

theorem firstMatch_of_finds (finds : ∀ after, reader stream ≠ .ok none after) :
    firstMatch (reader :: others) stream = reader stream := by
  rw [firstMatch, bind_apply, TokenStream.savingPositionIf_apply, bind_apply]
  cases outcome : reader stream with
  | error fault after => rfl
  | ok found after =>
      cases found with
      | none => exact (finds after outcome).elim
      | some node => rfl

theorem firstMatch_congr {seen : TokenStream} (same : reader stream = reader seen)
    (position : stream.position = seen.position) :
    firstMatch (reader :: others) stream = firstMatch (reader :: others) seen := by
  rw [firstMatch, bind_apply, bind_apply, TokenStream.savingPositionIf_apply,
    TokenStream.savingPositionIf_apply, bind_apply, bind_apply, same, position]

end Choice

def NeverNone (reader : Reading (Option Node)) : Prop :=
  ∀ stream after, reader stream ≠ .ok none after

theorem neverNone_some (node : Node) : NeverNone (pure (some node)) :=
  fun _ _ => nofun

theorem neverNone_bind {α : Type} {next : α → Reading (Option Node)} (first : Reading α)
    (others : ∀ value, NeverNone (next value)) : NeverNone (first >>= next) := by
  intro stream after done
  obtain ⟨value, middle, -, rest⟩ := exists_of_bind_ok done
  exact others value middle after rest

theorem ne_none_of_ok {α : Type} {first : Reading α} {next : α → Reading (Option Node)} {value : α}
    {stream seen after : TokenStream} (done : first stream = .ok value seen)
    (rest : next value seen ≠ .ok none after) : (first >>= next) stream ≠ .ok none after := by
  rw [bind_of_ok done]
  exact rest

theorem neverNone_ite {decided : Prop} [Decidable decided] {yes no : Reading (Option Node)}
    (neverYes : NeverNone yes) (neverNo : NeverNone no) :
    NeverNone (if decided then yes else no) := by
  by_cases holds : decided
  · rw [if_pos holds]
    exact neverYes
  · rw [if_neg holds]
    exact neverNo

/-! ### Single attempts -/

namespace Attempt

variable {dialect : Dialect} {expression : Reading Node} {allowance : Nat}
  {stream seen last : TokenStream} {found second : Option Token} {token : Token}

theorem bind_peek_seen {α : Type} (looked : peek stream = .ok found seen)
    (next : Option Token → Reading α) : (peek >>= next) stream = (peek >>= next) seen := by
  rw [bind_of_ok looked, bind_of_ok (TokenStream.peek_again looked)]

theorem run_seen (looked : peek stream = .ok found seen) (attempt : Attempt) :
    attempt.run dialect expression allowance stream =
      attempt.run dialect expression allowance seen := by
  cases attempt <;> exact bind_peek_seen looked _

theorem run_of_end (looked : peek stream = .ok none seen) (attempt : Attempt) :
    attempt.run dialect expression allowance stream = .ok none seen := by
  cases attempt <;> exact bind_of_ok looked

theorem run_of_other (looked : peek stream = .ok (some token) seen) {attempt : Attempt}
    (other : ofKind? token.kind ≠ some attempt) :
    attempt.run dialect expression allowance stream = .ok none seen := by
  cases attempt with
  | message =>
      refine (bind_of_ok looked).trans ?_
      dsimp only
      cases kind : token.kind with
      | dot | symbol => exact (other (congrArg ofKind? kind)).elim
      | _ => rfl
  | literal =>
      refine (bind_of_ok looked).trans ?_
      dsimp only
      cases kind : token.kind with
      | number | string => exact (other (congrArg ofKind? kind)).elim
      | _ => rfl
  | parenthesized =>
      refine (bind_of_ok looked).trans ?_
      dsimp only
      rw [if_neg fun kind => other (congrArg ofKind? kind)]
      rfl
  | braced =>
      refine (bind_of_ok looked).trans ?_
      dsimp only
      rw [if_neg fun kind => other (congrArg ofKind? kind)]
      rfl

theorem run_refuses (looked : peek stream = .ok found seen) {attempt : Attempt}
    (other : ∀ token ∈ found, ofKind? token.kind ≠ some attempt) :
    attempt.run dialect expression allowance stream = .ok none seen := by
  cases found with
  | none => exact run_of_end looked attempt
  | some token => exact run_of_other looked (other token rfl)

theorem neverNone_send (send : List Node → Node) :
    NeverNone (do return some (send (← messageArguments expression allowance))) :=
  neverNone_bind _ fun _ => neverNone_some _

/-- The attempt that the next token selects gives a node or fails, where a dot has a symbol
behind it. -/
theorem run_finds (looked : peek stream = .ok (some token) seen) {attempt : Attempt}
    (selected : ofKind? token.kind = some attempt)
    (behind : token.kind = .dot → ∃ name last, peek seen.advance = .ok (some name) last ∧
      name.kind = .symbol)
    (after : TokenStream) :
    attempt.run dialect expression allowance stream ≠ .ok none after := by
  cases kind : token.kind with
  | symbol =>
      rw [kind] at selected
      cases selected
      refine ne_none_of_ok looked ?_
      simp only [kind]
      refine neverNone_bind _ (fun selector => ?_) seen after
      refine neverNone_bind _ fun next => ?_
      exact neverNone_ite (neverNone_bind _ fun target => neverNone_send _) (neverNone_send _)
  | dot =>
      rw [kind] at selected
      cases selected
      obtain ⟨name, last, named, isSymbol⟩ := behind kind
      have passed : read seen = .ok (some token) seen.advance := by
        rw [TokenStream.read_apply, TokenStream.peek_again looked]
      refine ne_none_of_ok looked ?_
      simp only [kind]
      rw [bind_of_ok passed, bind_of_ok named]
      simp only [if_pos isSymbol]
      exact neverNone_bind _ (fun selector => neverNone_send _) last after
  | number | string =>
      rw [kind] at selected
      cases selected
      refine ne_none_of_ok looked ?_
      simp only [kind]
      exact neverNone_bind _ (fun atom => neverNone_some _) seen after
  | openParen | openBrace =>
      rw [kind] at selected
      cases selected
      refine ne_none_of_ok looked ?_
      simp only [kind, if_true]
      exact neverNone_bind _ (fun inner => neverNone_some _) seen after
  | semicolon | comma | closeBrace | closeParen =>
      rw [kind] at selected
      cases selected

theorem run_of_strayDot (looked : peek stream = .ok (some token) seen)
    (isDot : token.kind = .dot) (behind : peek seen.advance = .ok second last)
    (other : ∀ name ∈ second, name.kind ≠ .symbol) :
    message.run dialect expression allowance stream = .ok none last := by
  have passed : read seen = .ok (some token) seen.advance := by
    rw [TokenStream.read_apply, TokenStream.peek_again looked]
  refine (bind_of_ok looked).trans ?_
  simp only [isDot]
  rw [bind_of_ok passed, bind_of_ok behind]
  cases second with
  | none => rfl
  | some name =>
      dsimp only
      rw [if_neg (other name rfl)]
      rfl

end Attempt

/-! ### The choice -/

section Decision

open Attempt (ofKind?)

variable {dialect : Dialect} {expression : Reading Node} {allowance : Nat}
  {stream seen last : TokenStream} {found first second : Option Token} {token : Token}

theorem firstMatch_seen (looked : peek stream = .ok found seen) (attempt : Attempt)
    (attempts : List Attempt) (others : List (Reading (Option Node))) :
    firstMatch ((attempt :: attempts).map (Attempt.run dialect expression allowance) ++ others)
        stream =
      firstMatch ((attempt :: attempts).map (Attempt.run dialect expression allowance) ++ others)
        seen :=
  firstMatch_congr (Attempt.run_seen looked attempt)
    (TokenStream.looks_of_peek looked).position_eq.symm

theorem firstMatch_passes (looked : peek seen = .ok found seen) {attempts : List Attempt}
    (other : ∀ attempt ∈ attempts, ∀ token ∈ found,
      ofKind? token.kind ≠ some attempt)
    (others : List (Reading (Option Node))) :
    firstMatch (attempts.map (Attempt.run dialect expression allowance) ++ others) seen =
      firstMatch others seen := by
  induction attempts with
  | nil => rfl
  | cons attempt attempts ih =>
      obtain ⟨here, behind⟩ := List.forall_mem_cons.mp other
      rw [List.map_cons, List.cons_append,
        firstMatch_of_none (Attempt.run_refuses looked here), ih behind]

theorem modifier?_of_unselected (looked : peek stream = .ok found seen)
    (unselected : ∀ token ∈ found, ofKind? token.kind = none) :
    modifier? dialect expression allowance stream = .ok none seen := by
  have other (attempt : Attempt) :
      ∀ token ∈ found, ofKind? token.kind ≠ some attempt := by
    intro token among
    rw [unselected token among]
    exact nofun
  have passed : firstMatch (Attempt.all.map (Attempt.run dialect expression allowance) ++ [])
      seen = .ok none seen :=
    firstMatch_passes (TokenStream.peek_again looked) (fun attempt _ => other attempt) []
  exact (firstMatch_seen looked .message [.literal, .parenthesized, .braced] []).trans passed

/-- At a stray dot all attempts are made, and what was seen behind the dot is kept. -/
theorem modifier?_of_strayDot (looked : peek stream = .ok (some token) seen)
    (isDot : token.kind = .dot) (behind : peek seen.advance = .ok second last)
    (other : ∀ name ∈ second, name.kind ≠ .symbol) :
    ∃ after, modifier? dialect expression allowance stream = .ok none after ∧
      after.position = stream.position ∧ peek after = .ok (some token) after ∧
      nextTwo after = .ok (some token, second) last := by
  have looks := TokenStream.looks_of_peek looked
  have further := TokenStream.looks_of_peek behind
  have passed : last.behind = token :: stream.behind := by
    rw [further.behind, looks.behind_advance]
  have back := TokenStream.moveTo_of_behind passed
  have again : peek (last.moveTo stream.position) =
      .ok (some token) (last.moveTo stream.position) := by rw [back, peek]
  have onward : (last.moveTo stream.position).advance = last := by
    rw [back, TokenStream.advance]
    dsimp only
    rw [← passed]
  have within : stream.position ≤ last.scanned.length := by
    have grown := TokenStream.position_le last
    have place : last.position = stream.position + 1 := congrArg List.length passed
    omega
  refine ⟨last.moveTo stream.position, ?_, TokenStream.position_moveTo_of_le within, again, ?_⟩
  · have restored : savingPositionIf Option.isNone
        (Attempt.message.run dialect expression allowance) stream =
          .ok none (last.moveTo stream.position) := by
      rw [TokenStream.savingPositionIf_apply,
        bind_of_ok (Attempt.run_of_strayDot looked isDot behind other),
        if_pos Option.isNone_none, bind_of_ok (TokenStream.restore_of_le within)]
      rfl
    refine (bind_of_ok restored).trans ?_
    -- The dot is seen again by the attempts behind, and selects none of them.
    have unselected : ∀ attempt ∈ [Attempt.literal, .parenthesized, .braced],
        ∀ seen ∈ some token, ofKind? seen.kind ≠ some attempt := by
      rintro attempt among _ ⟨⟩
      rw [isDot]
      revert attempt
      decide
    exact firstMatch_passes again unselected []
  · refine TokenStream.nextTwo_of_peek again ?_
    rw [onward]
    exact TokenStream.peek_again behind

theorem firstMatch_selected (looked : peek stream = .ok (some token) seen) {attempt : Attempt}
    (selected : ofKind? token.kind = some attempt)
    (finds : ∀ after, attempt.run dialect expression allowance stream ≠ .ok none after)
    {earlier later : List Attempt} (split : Attempt.all = earlier ++ attempt :: later)
    (others : List (Reading (Option Node))) :
    firstMatch (earlier.map (Attempt.run dialect expression allowance) ++
        attempt.run dialect expression allowance :: others) stream =
      attempt.run dialect expression allowance stream := by
  cases earlier with
  | nil => exact firstMatch_of_finds finds
  | cons first earlier =>
      have unselected : ∀ other ∈ first :: earlier, ∀ shown ∈ some token,
          ofKind? shown.kind ≠ some other := by
        rintro other among _ ⟨⟩ same
        rw [selected] at same
        cases same
        have distinct : Attempt.all.Nodup := by decide
        rw [split] at distinct
        exact (List.nodup_append.mp distinct).2.2 _ among _ List.mem_cons_self rfl
      rw [firstMatch_seen looked,
        firstMatch_passes (TokenStream.peek_again looked) unselected]
      rw [Attempt.run_seen looked] at finds ⊢
      exact firstMatch_of_finds finds

theorem modifier?_of_selected (looked : peek stream = .ok (some token) seen) {attempt : Attempt}
    (selected : ofKind? token.kind = some attempt)
    (finds : ∀ after, attempt.run dialect expression allowance stream ≠ .ok none after) :
    modifier? dialect expression allowance stream =
      attempt.run dialect expression allowance stream := by
  obtain ⟨earlier, later, split⟩ := List.append_of_mem attempt.mem_all
  have same := firstMatch_selected looked selected finds split
    (later.map (Attempt.run dialect expression allowance))
  rw [← List.map_cons, ← List.map_append, ← split] at same
  exact same

theorem modifier?_finds (looked : peek stream = .ok (some token) seen) {attempt : Attempt}
    (selected : ofKind? token.kind = some attempt)
    (behind : token.kind = .dot → ∃ name last, peek seen.advance = .ok (some name) last ∧
      name.kind = .symbol)
    (after : TokenStream) : modifier? dialect expression allowance stream ≠ .ok none after := by
  have finds (final : TokenStream) :
      attempt.run dialect expression allowance stream ≠ .ok none final :=
    Attempt.run_finds looked selected behind final
  rw [modifier?_of_selected looked selected finds]
  exact finds after

/-- Where a modifier starts, the attempt that the next token selects decides. -/
theorem decides_of_starts (looked : nextTwo stream = .ok (first, second) last)
    (starts : ¬ StartsNothing first second) :
    ∃ token attempt, first = some token ∧ ofKind? token.kind = some attempt ∧
      attempt.Decides dialect expression allowance stream := by
  obtain ⟨seen, seesFirst, seesSecond⟩ := TokenStream.exists_of_nextTwo looked
  cases first with
  | none => exact (starts (.ended second)).elim
  | some token =>
      cases selected : ofKind? token.kind with
      | none =>
          have ends := (Attempt.ofKind?_eq_none_iff token.kind).mp selected
          exact (starts (.terminator ends second)).elim
      | some attempt =>
          have behind : token.kind = .dot → ∃ name last,
              peek seen.advance = .ok (some name) last ∧ name.kind = .symbol := by
            intro isDot
            apply Classical.byContradiction
            intro absent
            refine starts (.strayDot isDot ?_)
            rintro name ⟨⟩ isSymbol
            exact absent ⟨name, last, seesSecond, isSymbol⟩
          have finds : ∀ after, attempt.run dialect expression allowance stream ≠ .ok none after :=
            Attempt.run_finds seesFirst selected behind
          refine ⟨token, attempt, rfl, selected, modifier?_of_selected seesFirst selected finds,
            finds, ?_, ?_⟩
          · intro earlier later split others
            exact firstMatch_selected seesFirst selected finds split others
          · intro other apart
            refine ⟨seen, Attempt.run_of_other seesFirst ?_,
              (TokenStream.looks_of_peek seesFirst).position_eq⟩
            rw [selected]
            exact fun same => apart (Option.some.inj same).symm

theorem modifier?_of_startsNothing (looked : nextTwo stream = .ok (first, second) last)
    (nothing : StartsNothing first second) :
    ∃ after, modifier? dialect expression allowance stream = .ok none after ∧
      after.position = stream.position := by
  obtain ⟨seen, seesFirst, seesSecond⟩ := TokenStream.exists_of_nextTwo looked
  have place := (TokenStream.looks_of_peek seesFirst).position_eq
  cases nothing with
  | ended => exact ⟨seen, modifier?_of_unselected seesFirst nofun, place⟩
  | @terminator token ends =>
      refine ⟨seen, modifier?_of_unselected seesFirst ?_, place⟩
      rintro _ ⟨⟩
      exact (Attempt.ofKind?_eq_none_iff token.kind).mpr ends
  | strayDot isDot other =>
      obtain ⟨after, none, same, -, -⟩ := modifier?_of_strayDot seesFirst isDot seesSecond other
      exact ⟨after, none, same⟩

theorem chosenBy_nextTwo (looked : nextTwo stream = .ok (first, second) last) :
    ChosenBy dialect expression allowance stream first second where
  nothing_iff := by
    constructor
    · rintro ⟨after, none⟩
      apply Classical.byContradiction
      intro starts
      obtain ⟨token, attempt, -, -, decides⟩ := decides_of_starts looked starts
      exact decides.finds after (decides.outcome_eq.symm.trans none)
    · intro nothing
      obtain ⟨after, none, -⟩ := modifier?_of_startsNothing looked nothing
      exact ⟨after, none⟩
  stays := by
    intro after none
    by_cases nothing : StartsNothing first second
    · obtain ⟨other, same, place⟩ := modifier?_of_startsNothing looked nothing
      cases none.symm.trans same
      exact place
    · obtain ⟨token, attempt, -, -, decides⟩ := decides_of_starts looked nothing
      exact (decides.finds after (decides.outcome_eq.symm.trans none)).elim
  decides := decides_of_starts looked

end Decision

end Reading

end MessageForms
