import MessageForms.Proofs.Reading.Progress
import MessageForms.Reading.Program

set_option autoImplicit false

/-! Reading comes to an end, whatever the dialect makes of the tokens. A modifier or an expression
that was read takes a token at least, and the expressions inside of it start behind its first
token; so the allowance that a reader is given from what is left of the stream is never used up. -/

namespace MessageForms.Reading

open TokenStream (Onward)

section Finishing

variable {α : Type} {dialect : Dialect} {stream : TokenStream}

/-- Every allowance beyond what is left of the stream comes to the same as the reader's own, which
is not used up, unless it is the dialect that says so. -/
structure Finishes (dialect : Dialect) (reader : Nat → Reading α) (stream : TokenStream) :
    Prop where
  same : ∀ allowance, stream.allowance < allowance →
    reader allowance stream = withinAllowance reader stream
  lasts : ∀ after, withinAllowance reader stream = .error .exhausted after →
    dialect.Raises .exhausted

theorem finishes_of_settles {reader : Nat → Reading α} {condition : α → TokenStream → Prop}
    (settles : ∀ allowance allowance', stream.allowance < allowance →
      stream.allowance < allowance' →
      Settles (dialect.Raises .exhausted) (reader allowance) (reader allowance') condition
        stream) :
    Finishes dialect reader stream where
  same allowance enough := (settles allowance _ enough (Nat.lt_succ_self _)).same
  lasts after failed :=
    (settles _ _ (Nat.lt_succ_self _) (Nat.lt_succ_self _)).finishes after failed

theorem inside_of_lt {allowance allowance' : Nat} (enough : stream.allowance < allowance)
    (enough' : stream.allowance < allowance') (count : Nat) :
    Inside (dialect.Raises .exhausted) (expressionWithin dialect allowance)
      (expressionWithin dialect allowance') allowance allowance' count stream where
  passes later onward := by
    have less := onward.allowance_le
    exact passes_expressionWithin id (.inl ⟨by omega, by omega⟩)
  covers := .inl ⟨by omega, by omega⟩

theorem inside_self (dialect : Dialect) (allowance count : Nat) (stream : TokenStream) :
    Inside True (expressionWithin dialect allowance) (expressionWithin dialect allowance)
      allowance allowance count stream where
  passes _ _ := passes_expressionWithin (fun _ => trivial) (.inr ⟨rfl, trivial⟩)
  covers := .inr ⟨rfl, trivial⟩

/-- Up to the place of the stream another reader may take over: no expression inside starts there. -/
theorem inside_guarded (dialect : Dialect) (allowance : Nat) (intruder : Reading Node)
    (stream : TokenStream) :
    Inside True (expressionWithin dialect allowance)
      (fun later =>
        if stream.position < later.position then expressionWithin dialect allowance later
        else intruder later) allowance allowance 1 stream := by
  have inner := inside_self dialect allowance 1 stream
  refine { inner with passes := fun later onward => ?_ }
  refine { inner.passes later onward with same := ?_ }
  exact (if_pos onward.position_lt).symm

end Finishing

/-- How the readers of a dialect get on from a place. What holds for every allowance holds for each
call of a run, since a run hands its calls smaller and smaller ones. -/
structure Progresses (dialect : Dialect) (stream : TokenStream) : Prop where
  modifier_advances : ∀ allowance node after,
    modifier? dialect (expressionWithin dialect allowance) allowance stream = .ok (some node) after →
      stream.position < after.position
  modifier_stays : ∀ allowance after,
    modifier? dialect (expressionWithin dialect allowance) allowance stream = .ok none after →
      after.position = stream.position
  expression_advances : ∀ allowance node after,
    expressionWithin dialect allowance stream = .ok node after → stream.position < after.position
  /-- No expression inside is read from this place or from one before it: another reader that would
  take over there is never heard of. -/
  inner_advances : ∀ (allowance : Nat) (intruder : Reading Node),
    expressionStep dialect
        (fun later =>
          if stream.position < later.position then expressionWithin dialect allowance later
          else intruder later)
        allowance stream =
      expressionWithin dialect (allowance + 1) stream
  modifier_finishes : Finishes dialect
    (fun allowance => modifier? dialect (expressionWithin dialect allowance) allowance) stream
  expression_finishes : Finishes dialect (expressionWithin dialect) stream
  list_finishes : ∀ (delimiters : List TokenKind) (close : Option TokenKind),
    Finishes dialect
      (fun allowance => items (expressionWithin dialect allowance) delimiters close allowance)
      stream

/-- The readers of every dialect make progress at every place of a stream, and come to an end. -/
theorem progresses (dialect : Dialect) (stream : TokenStream) : Progresses dialect stream where
  modifier_advances allowance _ _ done :=
    have settled := settles_modifier? (inside_self dialect allowance 1 stream) fun _ => trivial
    (settled.holds _ _ done).onward.position_lt
  modifier_stays allowance _ done :=
    have settled := settles_modifier? (inside_self dialect allowance 1 stream) fun _ => trivial
    (settled.holds _ _ done).position_eq rfl
  expression_advances allowance _ _ done :=
    have settled := (inside_self dialect allowance 0 stream).passes stream (.refl stream)
    (settled.holds _ _ done).1.position_lt
  inner_advances allowance intruder :=
    have guarded := inside_guarded dialect allowance intruder stream
    (settles_expressionStep guarded fun _ => trivial).same.symm
  modifier_finishes := finishes_of_settles fun _ _ enough enough' =>
    settles_modifier? (inside_of_lt enough enough' 1) id
  expression_finishes := finishes_of_settles fun _ _ enough enough' =>
    (inside_of_lt enough enough' 0).passes stream (.refl stream)
  list_finishes delimiters close := finishes_of_settles fun _ _ enough enough' =>
    settles_items (inside_of_lt enough enough' 0) delimiters close

theorem raises_of_onText {α : Type} {dialect : Dialect} {reader : Nat → Reading α} {text : Text}
    (finishes : Finishes dialect reader (.ofText text))
    (failed : onText (withinAllowance reader) text = .error .exhausted) :
    dialect.Raises .exhausted := by
  unfold onText at failed
  cases outcome : withinAllowance reader (.ofText text) with
  | ok value after =>
      rw [outcome] at failed
      cases failed
  | error fault after =>
      rw [outcome] at failed
      cases failed
      exact finishes.lasts after outcome

end MessageForms.Reading

namespace MessageForms

open Reading

/-- The readers of every dialect get on from every place, and reading a text as an expression or as
a program comes to an end: it never uses its allowance up. -/
theorem reading_progresses (dialect : Dialect) :
    (∀ stream, Progresses dialect stream) ∧
      (∀ text, readText dialect text = .error .exhausted → dialect.Raises .exhausted) ∧
      ∀ file text, readProgram dialect file text = .error .exhausted →
        dialect.Raises .exhausted := by
  refine ⟨progresses dialect, ?_, ?_⟩
  · intro text failed
    exact raises_of_onText (progresses dialect _).expression_finishes failed
  · intro file text failed
    apply raises_of_onText ((progresses dialect _).list_finishes bodyDelimiters none)
    unfold readProgram at failed
    split at failed
    · cases failed
    · cases failed
    · cases failed
      assumption

/-- The message in front of the semicolon takes some of the tokens. -/
theorem reading_progresses_call :
    ∃ node after,
      expressionWithin .standard 6 (.ofText ['f', '(', 'a', ')', ';']) = .ok node after ∧
        (TokenStream.ofText ['f', '(', 'a', ')', ';']).position < after.position := by
  have reads : succeedsWith (fun _ => true)
      (expressionWithin .standard 6 (.ofText ['f', '(', 'a', ')', ';'])) = true := by decide
  obtain ⟨node, after, done, -⟩ := exists_of_succeedsWith reads
  exact ⟨node, after, done,
    ((reading_progresses .standard).1 _).expression_advances 6 node after done⟩

end MessageForms
