import MessageForms.Proofs.Reading.Spares
import MessageForms.Proofs.Reading.Termination

set_option autoImplicit false

/-! A macro form can only break off at a dot that has no symbol behind it. Everything else that ends
its modifiers ends the whole expression, so these dots are the one cause of the two complaints about
a form. Whoever complains is found by following the failing run: either a call of the expression
reader inside has failed in the same way, or the call itself has read modifiers up to the dot. -/

namespace MessageForms

namespace Reading

open TokenStream (peek peekKind read nextTwo fail Onward)

/-! ### Forms that break off -/

/-- One modifier after another is read, with looks at the next token in between. -/
inductive ReadsOn (modifier : Reading (Option Node)) :
    TokenStream → List Node → TokenStream → Prop where
  | refl (stream : TokenStream) : ReadsOn modifier stream [] stream
  | look {stream seen place : TokenStream} {found : Option Token} {nodes : List Node}
      (looked : peek stream = .ok found seen) (others : ReadsOn modifier seen nodes place) :
      ReadsOn modifier stream nodes place
  | read {stream next place : TokenStream} {node : Node} {nodes : List Node}
      (done : modifier stream = .ok (some node) next)
      (others : ReadsOn modifier next nodes place) : ReadsOn modifier stream (node :: nodes) place

/-- The problem is put at the next token, which is a dot without a symbol behind it. -/
def IsAtStrayDot (problem : Problem) (stream : TokenStream) : Prop :=
  ∃ dot second final, nextTwo stream = .ok (some dot, second) final ∧ dot.kind = .dot ∧
    (∀ name ∈ second, name.kind ≠ .symbol) ∧ problem.position = some dot.position ∧
    problem.preview = some (dot.position.preview stream.cursor.text)

/-- The modifiers of the form that starts here are read, and no other one follows them. The last of
them settles which of the two complaints is made. -/
def BreaksOff (modifier : Reading (Option Node)) (start : TokenStream) (problem : Problem)
    (after : TokenStream) : Prop :=
  ∃ nodes last place, ReadsOn modifier start nodes place ∧ nodes.getLast? = some last ∧
    modifier place = .ok none after ∧
    (problem.complaint = .contentAfterBody ↔ last.isBraced = true)

/-- The problem is met at a stray dot, by a call of the expression reader from here or from further
on, in the form that this call reads. -/
structure FailsAtStrayDot (dialect : Dialect) (allowance : Nat) (stream : TokenStream)
    (problem : Problem) (after : TokenStream) : Prop where
  atDot : IsAtStrayDot problem after
  call : ∃ inner start, inner < allowance ∧ stream.position ≤ start.position ∧
    expressionWithin dialect (inner + 1) start = .error (.problem problem) after ∧
    BreaksOff (modifier? dialect (expressionWithin dialect inner) inner) start problem after

section Steps

variable {dialect : Dialect} {expression : Reading Node} {allowance : Nat}
  {stream after : TokenStream}

theorem exists_of_peekKind {kind : Option TokenKind} (looked : peekKind stream = .ok kind after) :
    ∃ found, kind = found.map Token.kind ∧ peek stream = .ok found after := by
  obtain ⟨found, seen, shown, same⟩ := exists_of_bind_ok looked
  cases same
  exact ⟨found, rfl, shown⟩

theorem exists_readsOn_of_modifiers {modifier : Reading (Option Node)} {count : Nat}
    {nodes : List Node} (done : modifiers modifier count stream = .ok nodes after) :
    ∃ place, ReadsOn modifier stream nodes place ∧ modifier place = .ok none after := by
  induction count generalizing stream nodes with
  | zero => cases done
  | succ count ih =>
      obtain ⟨found, next, first, rest⟩ := exists_of_bind_ok done
      cases found with
      | none =>
          cases rest
          exact ⟨stream, .refl stream, first⟩
      | some node =>
          obtain ⟨others, final, further, same⟩ := exists_of_bind_ok rest
          cases same
          obtain ⟨place, readsOn, last⟩ := ih further
          exact ⟨place, .read first readsOn, last⟩

theorem withOperator_cases {left first : Node}
    (ends : ∀ later node final, expression later = .ok node final → IsEnded final)
    (done : withOperator dialect expression left stream = .ok first after) :
    (first = left ∧ ∃ found, peek stream = .ok found after) ∨ IsEnded after := by
  obtain ⟨found, seen, looked, rest⟩ := exists_of_bind_ok done
  cases found with
  | none =>
      cases rest
      exact .inl ⟨rfl, none, looked⟩
  | some token =>
      dsimp only at rest
      by_cases joins : dialect.isInfix token = true
      · rw [if_pos joins] at rest
        obtain ⟨operator, behind, -, rest⟩ := exists_of_bind_ok rest
        obtain ⟨right, final, further, same⟩ := exists_of_bind_ok rest
        cases same
        exact .inr (ends _ _ _ further)
      · rw [if_neg joins] at rest
        cases rest
        exact .inl ⟨rfl, some token, looked⟩

theorem isAtEnd_of_isEnded {kind : Option TokenKind} {seen : TokenStream}
    (ended : IsEnded stream) (looked : peekKind stream = .ok kind seen) : isAtEnd kind = true := by
  obtain ⟨found, rfl, shown⟩ := exists_of_peekKind looked
  have looks := TokenStream.looks_of_peek shown
  cases scanned : stream.ahead with
  | cons token others =>
      have nonempty : stream.ahead ≠ [] := by
        rw [scanned]
        exact List.cons_ne_nil token others
      have same := looks.next
      rw [looks.eq_of_ahead nonempty] at same
      rw [← same]
      exact ended.1
  | nil =>
      have atEnd : Token.next stream.cursor = .ok none stream.cursor :=
        Token.rests_of_rest_nil (ended.2 scanned)
      rw [peek, scanned] at shown
      dsimp only at shown
      rw [TokenStream.scanNext, atEnd] at shown
      cases shown
      rfl

theorem modifier?_ne_none_of_error {fault : Fault} {middle : TokenStream}
    (failed : Attempt.message.run dialect expression allowance stream = .error fault middle) :
    modifier? dialect expression allowance stream ≠ .ok none after := by
  have finds (final : TokenStream) :
      Attempt.message.run dialect expression allowance stream ≠ .ok none final := by
    rw [failed]
    exact nofun
  have same : modifier? dialect expression allowance stream =
      Attempt.message.run dialect expression allowance stream := firstMatch_of_finds finds
  rw [same]
  exact finds after

theorem exists_behind_dot {dot : Token} {seen : TokenStream}
    (nothing : modifier? dialect expression allowance stream = .ok none after)
    (looked : peek stream = .ok (some dot) seen) (isDot : dot.kind = .dot) :
    ∃ second final, peek seen.advance = .ok second final ∧
      ∀ name ∈ second, name.kind ≠ .symbol := by
  cases behind : peek seen.advance with
  | error fault middle =>
      have passed : read seen = .ok (some dot) seen.advance := by
        rw [TokenStream.read_apply, TokenStream.peek_again looked]
      have failed : Attempt.message.run dialect expression allowance stream =
          .error fault middle := by
        refine (bind_of_ok looked).trans ?_
        simp only [isDot]
        rw [bind_of_ok passed, bind_of_error behind]
      exact (modifier?_ne_none_of_error failed nothing).elim
  | ok second final =>
      refine ⟨second, final, rfl, ?_⟩
      rintro name ⟨⟩ isSymbol
      have selected : Attempt.ofKind? dot.kind = some .message := congrArg Attempt.ofKind? isDot
      exact modifier?_finds looked selected (fun _ => ⟨name, final, behind, isSymbol⟩) after nothing

/-- Where a form goes on and yet no modifier follows, there is a stray dot. -/
theorem strayDot_of_modifier?_none {kind : Option TokenKind} {seen : TokenStream}
    (nothing : modifier? dialect expression allowance stream = .ok none after)
    (looked : peekKind after = .ok kind seen) (goesOn : ¬ isAtEnd kind = true) :
    ∃ dot second final, peek after = .ok (some dot) after ∧ dot.kind = .dot ∧
      nextTwo after = .ok (some dot, second) final ∧ ∀ name ∈ second, name.kind ≠ .symbol := by
  obtain ⟨found, rfl, again⟩ := exists_of_peekKind looked
  cases shown : peek stream with
  | error fault middle => exact (modifier?_ne_none_of_error (bind_of_error shown) nothing).elim
  | ok first next =>
      by_cases unselected : ∀ token ∈ first, Attempt.ofKind? token.kind = none
      · cases nothing.symm.trans (modifier?_of_unselected shown unselected)
        cases again.symm.trans (TokenStream.peek_again shown)
        cases found with
        | none => exact (goesOn rfl).elim
        | some token =>
            exact (goesOn ((Attempt.ofKind?_eq_none_iff token.kind).mp (unselected token rfl))).elim
      · obtain ⟨token, rfl, attempt, selected⟩ : ∃ token, first = some token ∧
            ∃ attempt, Attempt.ofKind? token.kind = some attempt := by
          simpa [Option.ne_none_iff_exists'] using unselected
        by_cases isDot : token.kind = .dot
        · obtain ⟨second, final, behind, other⟩ := exists_behind_dot nothing shown isDot
          obtain ⟨back, same, -, seesDot, seesBoth⟩ :
              ∃ back, modifier? dialect expression allowance stream = .ok none back ∧
                back.position = stream.position ∧ peek back = .ok (some token) back ∧
                nextTwo back = .ok (some token, second) final :=
            modifier?_of_strayDot shown isDot behind other
          cases nothing.symm.trans same
          exact ⟨token, second, final, seesDot, isDot, seesBoth, other⟩
        · exact (modifier?_finds shown selected (fun dot => (isDot dot).elim) after nothing).elim

theorem fail_of_peek {α : Type} {token : Token} (looked : peek stream = .ok (some token) stream)
    (complaint : Complaint) :
    (fail complaint : Reading α) stream =
      .error (.problem
        { complaint
          position := some token.position
          preview := some (token.position.preview stream.cursor.text)
          hint := none }) stream := by
  have position : TokenStream.nextPosition stream = .ok token.position stream := bind_of_ok looked
  have preview : TokenStream.nextPreview stream =
      .ok (token.position.preview stream.cursor.text) stream := bind_of_ok position
  have problem : TokenStream.problemHere complaint stream = .ok _ stream :=
    (bind_of_ok position).trans (bind_of_ok preview)
  exact bind_of_ok problem

theorem breaksOff_of_complaint {problem : Problem} {start left : TokenStream} {first : Node}
    {others : List Node} {kind : Option TokenKind} {seen : TokenStream}
    (readsOn : ReadsOn (modifier? dialect expression allowance) start (first :: others) stream)
    (nothing : modifier? dialect expression allowance stream = .ok none left)
    (looked : peekKind left = .ok kind seen) (goesOn : ¬ isAtEnd kind = true)
    (complains : (if (others.getLast?.getD first).isBraced then fail .contentAfterBody
      else fail .bodyExpected : Reading Node) seen = .error (.problem problem) after) :
    IsAtStrayDot problem after ∧
      BreaksOff (modifier? dialect expression allowance) start problem after := by
  obtain ⟨dot, second, final, seesDot, isDot, seesBoth, other⟩ :=
    strayDot_of_modifier?_none nothing looked goesOn
  obtain ⟨found, rfl, sees⟩ := exists_of_peekKind looked
  cases sees.symm.trans seesDot
  by_cases braced : (others.getLast?.getD first).isBraced = true
  · rw [if_pos braced, fail_of_peek seesDot] at complains
    cases complains
    exact ⟨⟨dot, second, final, seesBoth, isDot, other, rfl, rfl⟩, first :: others, _, stream,
      readsOn, List.getLast?_cons, nothing, iff_of_true rfl braced⟩
  · rw [if_neg braced, fail_of_peek seesDot] at complains
    cases complains
    exact ⟨⟨dot, second, final, seesBoth, isDot, other, rfl, rfl⟩, first :: others, _, stream,
      readsOn, List.getLast?_cons, nothing, iff_of_false nofun braced⟩

end Steps

/-! ### Failing calls -/

section Calls

variable {dialect : Dialect} {expression : Reading Node} {allowance : Nat} {problem : Problem}
  {stream after : TokenStream} (about : problem.complaint.IsAboutForm)
  (sober : ¬ dialect.Raises (.problem problem))

include about sober

/-- If no reader inside has part in the failure, it comes from a form that breaks off here. -/
theorem breaksOff_of_spares (spares : Spares problem after expression)
    (ends : ∀ later node final, expression later = .ok node final → IsEnded final)
    (failed : expressionStep dialect expression allowance stream =
      .error (.problem problem) after) :
    IsAtStrayDot problem after ∧
      BreaksOff (modifier? dialect expression allowance) stream problem after := by
  obtain ⟨found, next, started, failing⟩ := exists_of_bind_error failed
    (spares_modifier? about spares sober stream)
  cases found with
  | none => exact (spares_fail about id next failing).elim
  | some argument =>
      obtain ⟨first, joined, done, fails⟩ := exists_of_bind_error failing
        (spares_withOperator about spares sober argument next)
      obtain ⟨kind, seen, looked, form⟩ := exists_of_bind_error fails
        (spares_peekKind about joined)
      by_cases atEnd : isAtEnd kind = true
      · rw [if_pos atEnd] at form
        cases form
      rw [if_neg atEnd] at form
      obtain ⟨others, left, listed, behind⟩ := exists_of_bind_error form
        (spares_modifiers about spares sober allowance seen)
      obtain ⟨kind', last, looked', complains⟩ := exists_of_bind_error behind
        (spares_peekKind about left)
      by_cases atEnd' : isAtEnd kind' = true
      · rw [if_pos atEnd'] at complains
        cases complains
      rw [if_neg atEnd'] at complains
      obtain ⟨place, readsOn, nothing⟩ := exists_readsOn_of_modifiers listed
      rcases withOperator_cases ends done with ⟨rfl, shown, sees⟩ | ended
      · obtain ⟨ahead, -, seesNext⟩ := exists_of_peekKind looked
        exact breaksOff_of_complaint (.read started (.look sees (.look seesNext readsOn))) nothing
          looked' atEnd' complains
      · -- The operator has taken an expression up to its end; no form goes on behind it.
        exact (atEnd (isAtEnd_of_isEnded ended looked)).elim

end Calls

theorem ReadsOn.settles {excused : Prop} {dialect : Dialect} {expression expression' : Reading Node}
    {allowance allowance' : Nat} {stream place : TokenStream} {nodes : List Node}
    (readsOn : ReadsOn (modifier? dialect expression' allowance') stream nodes place)
    (inside : Inside excused expression expression' allowance allowance' 1 stream)
    (raises : dialect.Raises .exhausted → excused) :
    ReadsOn (modifier? dialect expression allowance) stream nodes place ∧
      Onward 0 stream place := by
  induction readsOn with
  | refl stream => exact ⟨.refl stream, .refl stream⟩
  | look looked _ ih =>
      have onward := (TokenStream.looks_of_peek looked).onward
      obtain ⟨others, further⟩ := ih (inside.after onward)
      exact ⟨.look looked others, onward.extend further⟩
  | read done _ ih =>
      have settled := settles_modifier? inside raises
      have same := settled.same.trans done
      have onward := (settled.holds _ _ same).onward
      obtain ⟨others, further⟩ := ih (inside.after onward)
      exact ⟨.read same others, onward.weaken.extend further⟩

theorem BreaksOff.settles {excused : Prop} {dialect : Dialect}
    {expression expression' : Reading Node} {allowance allowance' : Nat}
    {stream after : TokenStream} {problem : Problem}
    (breaksOff : BreaksOff (modifier? dialect expression' allowance') stream problem after)
    (inside : Inside excused expression expression' allowance allowance' 1 stream)
    (raises : dialect.Raises .exhausted → excused) :
    BreaksOff (modifier? dialect expression allowance) stream problem after := by
  obtain ⟨nodes, last, place, readsOn, isLast, nothing, settled⟩ := breaksOff
  obtain ⟨readsOn, onward⟩ := readsOn.settles inside raises
  have same := (settles_modifier? (inside.after onward) raises).same
  exact ⟨nodes, last, place, readsOn, isLast, same.trans nothing, settled⟩

/-- The reader, which may only be used behind the given position. -/
def heardBehind (position : Nat) (expression : Reading Node) : Reading Node :=
  fun later =>
    if position < later.position then expression later else (throw .exhausted : Reading Node) later

section Heard

variable {dialect : Dialect} {expression : Reading Node} {allowance position : Nat}
  {problem : Problem} {after : TokenStream}

theorem inside_heardBehind (dialect : Dialect) (allowance : Nat) (stream : TokenStream) :
    Inside True (expressionWithin dialect allowance)
      (heardBehind stream.position (expressionWithin dialect allowance)) allowance allowance 1
      stream := by
  unfold heardBehind
  exact inside_guarded dialect allowance (throw .exhausted) stream

theorem spares_heardBehind (spared : ∀ later, position < later.position →
      expression later ≠ .error (.problem problem) after) :
    Spares problem after (heardBehind position expression) := by
  intro later failed
  by_cases beyond : position < later.position
  · exact spared later beyond ((if_pos beyond).symm.trans failed)
  · cases (if_neg beyond).symm.trans failed

theorem isEnded_of_heardBehind {later : TokenStream} {node : Node}
    (done : heardBehind position (expressionWithin dialect allowance) later = .ok node after) :
    IsEnded after := by
  by_cases beyond : position < later.position
  · have passes := (inside_self dialect allowance 0 later).passes later (.refl later)
    exact (passes.holds node after ((if_pos beyond).symm.trans done)).2
  · cases (if_neg beyond).symm.trans done

end Heard

/-- The induction is on the allowance. A call inside that fails further on is taken up there; if
there is none, the run is the same with a reader inside that never fails so. -/
theorem failsAtStrayDot {dialect : Dialect} {problem : Problem} {allowance : Nat}
    {stream after : TokenStream} (about : problem.complaint.IsAboutForm)
    (sober : ¬ dialect.Raises (.problem problem))
    (failed : expressionWithin dialect allowance stream = .error (.problem problem) after) :
    FailsAtStrayDot dialect allowance stream problem after := by
  induction allowance generalizing stream with
  | zero => cases failed
  | succ allowance ih =>
      by_cases further : ∃ later, stream.position < later.position ∧
          expressionWithin dialect allowance later = .error (.problem problem) after
      · obtain ⟨later, beyond, fails⟩ := further
        obtain ⟨atDot, inner, start, less, behind, call⟩ := ih fails
        exact ⟨atDot, inner, start, by omega, by omega, call⟩
      · have inside := inside_heardBehind dialect allowance stream
        have same : expressionWithin dialect (allowance + 1) stream = expressionStep dialect
            (heardBehind stream.position (expressionWithin dialect allowance)) allowance stream :=
          (settles_expressionStep inside fun _ => trivial).same
        have spares : Spares problem after
            (heardBehind stream.position (expressionWithin dialect allowance)) :=
          spares_heardBehind fun later beyond fails => further ⟨later, beyond, fails⟩
        obtain ⟨atDot, breaksOff⟩ := breaksOff_of_spares about sober spares
          (fun _ _ _ done => isEnded_of_heardBehind done) (same.symm.trans failed)
        exact ⟨atDot, allowance, stream, by omega, by omega, failed,
          breaksOff.settles inside fun _ => trivial⟩

end Reading

theorem Dialect.standard_not_raises {problem : Problem} (about : problem.complaint.IsAboutForm) :
    ¬ Dialect.standard.Raises (.problem problem) := by
  rintro ⟨token, raised | raised | raised⟩
  · change numberAtom token = .error (.problem problem) at raised
    unfold numberAtom at raised
    cases known : Binary64.ofText? token.raw with
    | some value =>
        rw [known] at raised
        cases raised
    | none =>
        rw [known] at raised
        cases raised
        exact about
  · cases raised
  · cases raised

open Reading

/-- Two tokens of lookahead decide what the attempts at a modifier come to, in every state of a
stream in which they can be seen. So a macro form breaks off at a stray dot only, in whichever call
of the reader it is read. -/
theorem lookahead_decides_modifiers (dialect : Dialect) :
    (∀ expression allowance stream first second after,
      TokenStream.nextTwo stream = .ok (first, second) after →
        ChosenBy dialect expression allowance stream first second) ∧
      ∀ allowance stream problem after,
        expressionWithin dialect allowance stream = .error (.problem problem) after →
        problem.complaint.IsAboutForm → ¬ dialect.Raises (.problem problem) →
          FailsAtStrayDot dialect allowance stream problem after :=
  ⟨fun _ _ _ _ _ _ looked => chosenBy_nextTwo looked,
    fun _ _ _ _ failed about sober => failsAtStrayDot about sober failed⟩

/-- A dot in front of a number starts nothing; a dot behind a body is in the way. -/
theorem lookahead_decides_modifiers_after_body :
    (∃ after, modifier? .standard (expression .standard) 4 (.ofText ['.', '1']) = .ok none after ∧
      after.position = 0) ∧
      ∃ problem after,
        expressionWithin .standard 5 (.ofText ['a', '{', '}', '.']) =
          .error (.problem problem) after ∧
        problem.complaint = .contentAfterBody ∧
        FailsAtStrayDot .standard 5 (.ofText ['a', '{', '}', '.']) problem after := by
  constructor
  · obtain ⟨dot, number, final, looked, isDot, isNumber⟩ : ∃ dot number final,
        TokenStream.nextTwo (.ofText ['.', '1']) = .ok (some dot, some number) final ∧
          dot.kind = .dot ∧ number.kind = .number := ⟨_, _, _, rfl, rfl, rfl⟩
    have chosen := (lookahead_decides_modifiers .standard).1 (expression .standard) 4 _ _ _ _ looked
    obtain ⟨after, nothing⟩ := chosen.nothing_iff.mpr (.strayDot isDot (by
      rintro _ ⟨⟩ isSymbol
      rw [isNumber] at isSymbol
      cases isSymbol))
    exact ⟨after, nothing, chosen.stays after nothing⟩
  · obtain ⟨problem, after, failed, complaint⟩ : ∃ problem after,
        expressionWithin .standard 5 (.ofText ['a', '{', '}', '.']) =
            .error (.problem problem) after ∧
          problem.complaint = .contentAfterBody := ⟨_, _, rfl, rfl⟩
    have about : problem.complaint.IsAboutForm := by
      rw [complaint]
      trivial
    exact ⟨problem, after, failed, complaint, (lookahead_decides_modifiers .standard).2 5 _ _ _
      failed about (Dialect.standard_not_raises about)⟩

end MessageForms
