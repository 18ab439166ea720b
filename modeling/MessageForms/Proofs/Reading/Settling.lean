import MessageForms.Proofs.Token.Onward
import MessageForms.Reading.Expression

set_option autoImplicit false

/-! Two runs of a reader side by side, which may use different readers inside and have different
allowances. The rules say when both come to the same and what then holds of it, and that they only
run out of an allowance where there is an excuse for it. -/

namespace MessageForms.Reading

open TokenStream (Onward Looks peek peekKind read fail)

/-- Both readers come to the same, which is as the condition says if they succeed. Their allowance
is used up only if that is excused. -/
structure Settles {α : Type} (excused : Prop) (reader reader' : Reading α)
    (condition : α → TokenStream → Prop) (stream : TokenStream) : Prop where
  same : reader stream = reader' stream
  holds : ∀ value after, reader stream = .ok value after → condition value after
  finishes : ∀ after, reader stream = .error .exhausted after → excused

section Rules

variable {α β : Type} {excused : Prop} {stream : TokenStream}

theorem settles_pure {value : α} {condition : α → TokenStream → Prop}
    (holds : condition value stream) :
    Settles excused (pure value) (pure value) condition stream where
  same := rfl
  holds value after done := by
    cases done
    exact holds
  finishes := nofun

theorem settles_of_ok {reader : Reading α} {value : α} {after : TokenStream}
    {condition : α → TokenStream → Prop} (done : reader stream = .ok value after)
    (holds : condition value after) : Settles excused reader reader condition stream where
  same := rfl
  holds found final same := by
    rw [done] at same
    cases same
    exact holds
  finishes final failed := by
    rw [done] at failed
    cases failed

theorem settles_throw {fault : Fault} (excuse : fault = .exhausted → excused)
    (condition : α → TokenStream → Prop) :
    Settles excused (throw fault) (throw fault) condition stream where
  same := rfl
  holds := nofun
  finishes after failed := by
    cases failed
    exact excuse rfl

theorem Settles.bind {first first' : Reading α} {next next' : α → Reading β}
    {condition : α → TokenStream → Prop} {condition' : β → TokenStream → Prop}
    (settles : Settles excused first first' condition stream)
    (others : ∀ value after, condition value after →
      Settles excused (next value) (next' value) condition' after) :
    Settles excused (first >>= next) (first' >>= next') condition' stream := by
  have same := settles.same
  cases outcome : first stream with
  | ok value after =>
      have rest := others value after (settles.holds value after outcome)
      have outcome' : first' stream = .ok value after := same ▸ outcome
      refine ⟨?_, ?_, ?_⟩
      · rw [bind_of_ok outcome, bind_of_ok outcome']
        exact rest.same
      · rw [bind_of_ok outcome]
        exact rest.holds
      · rw [bind_of_ok outcome]
        exact rest.finishes
  | error fault after =>
      have outcome' : first' stream = .error fault after := same ▸ outcome
      refine ⟨?_, ?_, ?_⟩
      · rw [bind_of_error outcome, bind_of_error outcome']
      · rw [bind_of_error outcome]
        exact nofun
      · rw [bind_of_error outcome]
        intro final failed
        cases failed
        exact settles.finishes after outcome

theorem Settles.imp {reader reader' : Reading α} {condition condition' : α → TokenStream → Prop}
    (settles : Settles excused reader reader' condition stream)
    (weaker : ∀ value after, condition value after → condition' value after) :
    Settles excused reader reader' condition' stream :=
  { settles with holds := fun value after done => weaker value after (settles.holds _ _ done) }

theorem Settles.ite {decided : Prop} [Decidable decided] {yes yes' no no' : Reading α}
    {condition : α → TokenStream → Prop}
    (settlesYes : decided → Settles excused yes yes' condition stream)
    (settlesNo : ¬ decided → Settles excused no no' condition stream) :
    Settles excused (if decided then yes else no) (if decided then yes' else no') condition
      stream := by
  by_cases holds : decided
  · rw [if_pos holds, if_pos holds]
    exact settlesYes holds
  · rw [if_neg holds, if_neg holds]
    exact settlesNo holds

end Rules

/-! ### Single steps -/

section Steps

variable {α : Type} {excused : Prop} {stream : TokenStream}

theorem settles_peek : Settles excused peek peek (Looks stream) stream := by
  have looked := TokenStream.peek_looks stream
  refine ⟨rfl, ?_, ?_⟩
  · intro found after done
    rw [done] at looked
    exact looked
  · intro after failed
    rw [failed] at looked
    exact (looked rfl).elim

theorem settles_peekKind :
    Settles excused peekKind peekKind
      (fun kind after => ∃ found, kind = found.map Token.kind ∧ Looks stream found after) stream :=
  settles_peek.bind fun found _ looks => settles_pure ⟨found, rfl, looks⟩

theorem settles_read :
    Settles excused read read
      (fun found after => ∃ seen, Looks stream found seen ∧ after = seen.advance) stream := by
  apply settles_peek.bind
  intro found seen looks
  refine ⟨rfl, ?_, nofun⟩
  intro value after done
  cases done
  exact ⟨seen, looks, rfl⟩

theorem settles_takeAtom {understood : Token → Except Fault Atom} {token : Token}
    (excuse : understood token = .error .exhausted → excused) (seen : stream.ahead ≠ []) :
    Settles excused (takeAtom understood token) (takeAtom understood token)
      (fun _ after => Onward 1 stream after) stream := by
  apply settles_read.bind
  rintro _ _ ⟨passed, looks, rfl⟩
  cases known : understood token with
  | ok atom => exact settles_pure (looks.onward_advance_of_ahead seen)
  | error fault =>
      apply settles_throw
      intro same
      subst same
      exact excuse known

theorem settles_fail (complaint : Complaint) (condition : α → TokenStream → Prop) :
    Settles excused (fail complaint) (fail complaint) condition stream := by
  have position (stream : TokenStream) :
      Settles excused TokenStream.nextPosition TokenStream.nextPosition (fun _ _ => True)
        stream := by
    apply settles_peek.bind
    intro found after _
    cases found with
    | some token => exact settles_pure trivial
    | none => exact ⟨rfl, fun _ _ _ => trivial, nofun⟩
  have preview (stream : TokenStream) :
      Settles excused TokenStream.nextPreview TokenStream.nextPreview (fun _ _ => True) stream := by
    apply (position stream).bind
    intro _ after _
    exact ⟨rfl, fun _ _ _ => trivial, nofun⟩
  have problem : Settles excused (TokenStream.problemHere complaint)
      (TokenStream.problemHere complaint) (fun _ _ => True) stream := by
    apply (position stream).bind
    intro _ after _
    exact (preview after).bind fun _ _ _ => settles_pure trivial
  exact problem.bind fun _ _ _ => settles_throw nofun condition

end Steps

end MessageForms.Reading
