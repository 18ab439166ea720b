import MessageForms.Proofs.Grammar.Predictive
import MessageForms.Proofs.Token.Upcoming

set_option autoImplicit false

/-! Readers of streams agree with parsers of token lists: on a stream that offers the tokens, the
reader gives the node of the parser's tree and leaves a stream that offers the parser's rest, or it
fails with the fault that the parser's stop stands for. Agreement is composed step by step. -/

namespace MessageForms

def upcomingPosition (text : Text) : List Token → Position
  | token :: _ => token.position
  | [] => .after text

/-- A complaint in front of these tokens, as it is reported. -/
def upcomingProblem (text : Text) (tokens : List Token) (complaint : Complaint) : Problem :=
  { complaint
    position := some (upcomingPosition text tokens)
    preview := some ((upcomingPosition text tokens).preview text)
    hint := none }

namespace Grammar

def Stop.toFault (text : Text) (tokens : List Token) : Stop → Fault
  | .complaint cause => .problem (upcomingProblem text tokens cause)
  | .fault raised => raised

section Agreement

variable (text : Text) (all : List Token) (ending : Option Fault)

def Agrees {α β : Type} (reader : Reading α) (parser : Parsing β) (value : β → α)
    (tokens : List Token) : Prop :=
  ∀ stream : TokenStream, stream.Offers text all ending tokens →
    match parser tokens with
    | .ok result rest =>
        ∃ after, reader stream = .ok (value result) after ∧ after.Offers text all ending rest
    | .error stop rest => ∃ after, reader stream = .error (stop.toFault text rest) after

variable {text all ending} {α β γ δ : Type} {tokens : List Token}

/-! ### Composition -/

theorem agrees_pure {found : α} {result : β} {value : β → α} (same : found = value result) :
    Agrees text all ending (pure found) (pure result) value tokens := by
  subst same
  exact fun stream offers => ⟨stream, rfl, offers⟩

theorem agrees_throw (fault : Fault) {value : β → α} :
    Agrees text all ending (throw fault) (throw (.fault fault)) value tokens :=
  fun stream _ => ⟨stream, show (throw fault : Reading α) stream = _ from rfl⟩

theorem Agrees.bind {first : Reading α} {first' : Parsing β} {value : β → α}
    {next : α → Reading γ} {next' : β → Parsing δ} {value' : δ → γ}
    (agrees : Agrees text all ending first first' value tokens)
    (others : ∀ result rest, first' tokens = .ok result rest →
      Agrees text all ending (next (value result)) (next' result) value' rest) :
    Agrees text all ending (first >>= next) (first' >>= next') value' tokens := by
  intro stream offers
  have start := agrees stream offers
  rw [bind_apply first' next' tokens]
  cases parsed : first' tokens with
  | ok result rest =>
      rw [parsed] at start
      rcases start with ⟨after, found, again⟩
      rw [bind_of_ok found]
      exact others result rest parsed after again
  | error stop rest =>
      rw [parsed] at start
      rcases start with ⟨after, failed⟩
      exact ⟨after, bind_of_error failed⟩

theorem Agrees.map {reader : Reading α} {parser : Parsing β} {value : β → α}
    (agrees : Agrees text all ending reader parser value tokens) (form : α → γ) :
    Agrees text all ending (do return form (← reader)) parser (fun result => form (value result))
      tokens := by
  intro stream offers
  have start := agrees stream offers
  cases parsed : parser tokens with
  | ok result rest =>
      rw [parsed] at start
      rcases start with ⟨after, found, again⟩
      exact ⟨after, bind_of_ok found, again⟩
  | error stop rest =>
      rw [parsed] at start
      rcases start with ⟨after, failed⟩
      exact ⟨after, bind_of_error failed⟩

theorem Agrees.build {reader : Reading α} {parser : Parsing β} {value : β → α}
    {value' : δ → α} (agrees : Agrees text all ending reader parser value tokens) (form : β → δ)
    (same : ∀ result, value' (form result) = value result) :
    Agrees text all ending reader (do return form (← parser)) value' tokens := by
  intro stream offers
  have start := agrees stream offers
  rw [bind_apply parser]
  cases parsed : parser tokens with
  | ok result rest =>
      rw [parsed] at start
      rcases start with ⟨after, found, again⟩
      refine ⟨after, ?_, again⟩
      rw [found, same]
  | error stop rest =>
      rw [parsed] at start
      exact start

theorem Agrees.ite {condition condition' : Prop} [Decidable condition] [Decidable condition']
    {yes no : Reading α} {yes' no' : Parsing β} {value : β → α} (same : condition ↔ condition')
    (agreesYes : condition' → Agrees text all ending yes yes' value tokens)
    (agreesNo : ¬ condition' → Agrees text all ending no no' value tokens) :
    Agrees text all ending (if condition then yes else no) (if condition' then yes' else no') value
      tokens := by
  by_cases decided : condition'
  · rw [if_pos decided, if_pos (same.mpr decided)]
    exact agreesYes decided
  · rw [if_neg decided, if_neg fun other => decided (same.mp other)]
    exact agreesNo decided

theorem Agrees.congr {reader : Reading α} {parser parser' : Parsing β} {value : β → α}
    (agrees : Agrees text all ending reader parser' value tokens)
    (same : parser tokens = parser' tokens) :
    Agrees text all ending reader parser value tokens := by
  intro stream offers
  rw [same]
  exact agrees stream offers

theorem Agrees.after {first : Reading α} {found : α} {next : α → Reading γ} {parser : Parsing δ}
    {value : δ → γ}
    (agrees : Agrees text all ending (next found) parser value tokens)
    (looked : ∀ stream : TokenStream, stream.Offers text all ending tokens →
      ∃ after, first stream = .ok found after ∧ after.Offers text all ending tokens) :
    Agrees text all ending (first >>= next) parser value tokens := by
  intro stream offers
  obtain ⟨after, same, again⟩ := looked stream offers
  rw [bind_of_ok same]
  exact agrees after again

/-! ### Single steps -/

theorem exists_peek {stream : TokenStream} (clear : Clear ending tokens)
    (offers : stream.Offers text all ending tokens) :
    ∃ after, stream.peek = .ok tokens.head? after ∧ after.Offers text all ending tokens := by
  cases tokens with
  | cons token tokens =>
      rcases offers.peek_of_cons with ⟨after, ahead, found, -, -, again⟩
      exact ⟨after, found, again⟩
  | nil =>
      cases clear rfl
      exact ⟨_, offers.peek_of_nil, offers.again_of_nil⟩

theorem exists_peekKind {stream : TokenStream} (clear : Clear ending tokens)
    (offers : stream.Offers text all ending tokens) :
    ∃ after, stream.peekKind = .ok (nextKind tokens) after ∧
      after.Offers text all ending tokens := by
  obtain ⟨after, found, again⟩ := exists_peek clear offers
  refine ⟨after, ?_, again⟩
  rw [TokenStream.peekKind, bind_of_ok found]
  rfl

theorem agrees_peek :
    Agrees text all ending TokenStream.peek (Predictive.peek ending) id tokens := by
  intro stream offers
  cases tokens with
  | cons token tokens => exact exists_peek (Predictive.clear_cons _ _ _) offers
  | nil =>
      cases ending with
      | none => exact exists_peek (fun _ => rfl) offers
      | some fault =>
          rcases offers.peek_of_fault with ⟨cursor, failed, -⟩
          exact ⟨{ stream with cursor }, failed⟩

theorem agrees_peekKind :
    Agrees text all ending TokenStream.peekKind (Predictive.peekKind ending) id tokens :=
  agrees_peek.bind fun _ _ _ => agrees_pure rfl

theorem agrees_peekKind_peek :
    Agrees text all ending TokenStream.peekKind (Predictive.peek ending) (Option.map Token.kind)
      tokens :=
  agrees_peek.map (Option.map Token.kind)

theorem agrees_read :
    Agrees text all ending TokenStream.read (Predictive.read ending) id tokens := by
  intro stream offers
  cases tokens with
  | cons token tokens =>
      rcases offers.read_of_cons with ⟨after, found, -, again⟩
      exact ⟨after, found, again⟩
  | nil =>
      rw [TokenStream.read_apply]
      cases ending with
      | none =>
          rcases offers.upcoming with ⟨unscanned, -, listed⟩
          have ahead := (List.append_eq_nil_iff.mp listed.symm).1
          have stays : TokenStream.advance { stream with cursor := .between text [] } =
              { stream with cursor := .between text [] } := by
            rw [TokenStream.advance, ahead]
          rw [offers.peek_of_nil]
          dsimp only
          rw [stays]
          exact ⟨_, rfl, offers.again_of_nil⟩
      | some fault =>
          rcases offers.peek_of_fault with ⟨cursor, failed, -⟩
          rw [failed]
          exact ⟨{ stream with cursor }, rfl⟩

/-! ### Complaints -/

theorem exists_nextPosition {stream : TokenStream} (clear : Clear ending tokens)
    (offers : stream.Offers text all ending tokens) :
    ∃ after, stream.nextPosition = .ok (upcomingPosition text tokens) after ∧
      after.Offers text all ending tokens := by
  cases tokens with
  | cons token tokens =>
      obtain ⟨after, found, again⟩ := exists_peek clear offers
      refine ⟨after, ?_, again⟩
      rw [TokenStream.nextPosition, bind_of_ok found]
      rfl
  | nil =>
      cases clear rfl
      refine ⟨_, ?_, offers.again_of_nil⟩
      rw [TokenStream.nextPosition, bind_of_ok offers.peek_of_nil]
      rfl

theorem exists_nextPreview {stream : TokenStream} (clear : Clear ending tokens)
    (offers : stream.Offers text all ending tokens) :
    ∃ after, stream.nextPreview = .ok ((upcomingPosition text tokens).preview text) after ∧
      after.Offers text all ending tokens := by
  obtain ⟨after, found, again⟩ := exists_nextPosition clear offers
  refine ⟨after, ?_, again⟩
  rw [TokenStream.nextPreview, bind_of_ok found, ← again.text_eq]
  rfl

theorem exists_problemHere {stream : TokenStream} (clear : Clear ending tokens)
    (offers : stream.Offers text all ending tokens) (complaint : Complaint) :
    ∃ after, stream.problemHere complaint = .ok (upcomingProblem text tokens complaint) after := by
  obtain ⟨seen, found, again⟩ := exists_nextPosition clear offers
  obtain ⟨after, shown, -⟩ := exists_nextPreview clear again
  refine ⟨after, ?_⟩
  rw [TokenStream.problemHere, bind_of_ok found, bind_of_ok shown]
  rfl

theorem agrees_fail (complaint : Complaint) {value : β → α} :
    Agrees text all ending (TokenStream.fail complaint) (Predictive.fail ending complaint) value
      tokens := by
  intro stream offers
  cases tokens with
  | cons token tokens =>
      obtain ⟨after, found⟩ :=
        exists_problemHere (Predictive.clear_cons _ _ _) offers complaint
      refine ⟨after, ?_⟩
      rw [TokenStream.fail, bind_of_ok found]
      rfl
  | nil =>
      cases ending with
      | none =>
          obtain ⟨after, found⟩ := exists_problemHere (fun _ => rfl) offers complaint
          refine ⟨after, ?_⟩
          rw [TokenStream.fail, bind_of_ok found]
          rfl
      | some fault =>
          rcases offers.peek_of_fault with ⟨cursor, failed, -⟩
          refine ⟨{ stream with cursor }, ?_⟩
          rw [TokenStream.fail, TokenStream.problemHere, TokenStream.nextPosition]
          exact bind_of_error (bind_of_error (bind_of_error failed))

theorem agrees_takeAtom (understood : Token → Except Fault Atom) (token : Token) :
    Agrees text all ending (Reading.takeAtom understood token)
      (Predictive.take ending understood token)
      (fun token => (understood token).toOption.getD default) tokens := by
  apply agrees_read.bind
  intro _ rest _
  cases known : understood token with
  | ok atom =>
      intro stream offers
      refine ⟨stream, ?_, offers⟩
      change EStateM.Result.ok atom stream =
        .ok ((understood token).toOption.getD default) stream
      rw [known]
      rfl
  | error fault => exact agrees_throw fault

end Agreement

end Grammar

end MessageForms
