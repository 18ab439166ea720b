import MessageForms.Proofs.Grammar.Completeness
import MessageForms.Proofs.Grammar.Simulation
import MessageForms.Proofs.Number.DigitRun
import MessageForms.Proofs.Token.Tokenized
import MessageForms.Reading.Program

set_option autoImplicit false

/-! Reading a program is parsing the tokens of its text. For a text without a stray character or an
open string, the standard dialect's programs are exactly those of the grammar. -/

namespace MessageForms

namespace TokenStream

theorem ofText_offers_tokenize (text : Text) :
    (ofText text).Offers text (tokenize text).1.1 (tokenize text).1.2 (tokenize text).1.1 := by
  obtain ⟨pieces, margin, rest, division, tokenized⟩ := exists_tokenize_eq text
  rw [tokenized]
  exact ofText_offers division

theorem length_tokenize_le (text : Text) : (tokenize text).1.1.length ≤ text.length := by
  obtain ⟨pieces, margin, rest, division, tokenized⟩ := exists_tokenize_eq text
  rw [tokenized, List.length_map]
  exact division.length_le

theorem fits_of_mem_tokenize {text : Text} {token : Token}
    (among : token ∈ (tokenize text).1.1) : token.Fits := by
  obtain ⟨pieces, margin, rest, division, tokenized⟩ := exists_tokenize_eq text
  rw [tokenized] at among
  obtain ⟨piece, member, rfl⟩ := List.mem_map.mp among
  exact division.fits piece member

end TokenStream

open TokenStream (tokenize)

/-! ### Any dialect -/

namespace Grammar

/-- What a reader that agrees with a parser gives for a whole text, without what is left of it. -/
def answer {α β : Type} (text : Text) (value : β → α) :
    EStateM.Result Stop (List Token) β → Except Fault α
  | .ok result _ => .ok (value result)
  | .error stop rest => .error (stop.toFault text rest)

def parseProgram (dialect : Dialect) (text : Text) : EStateM.Result Stop (List Token) Items :=
  Predictive.items (tokenize text).1.2
    (Predictive.expressionWithin (tokenize text).1.2 dialect (text.length + 1))
    Reading.bodyDelimiters none (text.length + 1) (tokenize text).1.1

def parseExpression (dialect : Dialect) (text : Text) :
    EStateM.Result Stop (List Token) Expression :=
  Predictive.expressionWithin (tokenize text).1.2 dialect (text.length + 1) (tokenize text).1.1

end Grammar

namespace Reading

open Grammar

theorem onText_of_agrees {α β : Type} {reader : Reading α} {parser : Parsing β}
    {value : β → α} (text : Text)
    (agrees : Agrees text (tokenize text).1.1 (tokenize text).1.2 reader parser value
      (tokenize text).1.1) :
    onText reader text = answer text value (parser (tokenize text).1.1) := by
  have started := agrees (.ofText text) (TokenStream.ofText_offers_tokenize text)
  rw [onText]
  cases parsed : parser (tokenize text).1.1 with
  | ok result rest =>
      rw [parsed] at started
      rcases started with ⟨after, done, -⟩
      rw [done]
      rfl
  | error stop rest =>
      rw [parsed] at started
      rcases started with ⟨after, failed⟩
      rw [failed]
      rfl

theorem onText_withinAllowance {α : Type} (reader : Nat → Reading α) (text : Text) :
    onText (withinAllowance reader) text = onText (reader (text.length + 1)) text := by
  have started : withinAllowance reader (.ofText text) =
      reader (0 + text.length + 1) (.ofText text) := rfl
  rw [onText, started, Nat.zero_add]
  rfl

theorem onText_programItems (dialect : Dialect) (text : Text) :
    onText (programItems dialect) text =
      answer text (Items.nodes dialect) (parseProgram dialect text) := by
  have inner := @agrees_expressionWithin text (tokenize text).1.1 (tokenize text).1.2
    dialect (text.length + 1)
  rw [programItems, onText_withinAllowance]
  exact onText_of_agrees text (agrees_items inner _ none (text.length + 1) _)

theorem onText_expression (dialect : Dialect) (text : Text) :
    onText (expression dialect) text =
      answer text (Expression.node dialect) (parseExpression dialect text) := by
  rw [expression, onText_withinAllowance]
  exact onText_of_agrees text (agrees_expressionWithin dialect (text.length + 1) _)

end Reading

/-! ### The standard dialect -/

namespace Dialect

theorem standard_isInfix_iff (token : Token) :
    standard.isInfix token = true ↔
      token.kind = .symbol ∧ token.raw ≠ ['='] ∧
        ∀ character ∈ token.raw, Text.isOperator character = true := by
  simp only [standard, isOperatorSymbol, Bool.and_eq_true, decide_eq_true_eq, bne_iff_ne,
    List.all_eq_true, Keyword.assignment, and_assoc]

theorem standard_joinsSymbols : standard.JoinsSymbols :=
  fun token joins => ((standard_isInfix_iff token).mp joins).1

theorem standard_understands {token : Token} (fits : token.Fits) : standard.Understands token := by
  cases kind : token.kind with
  | number =>
      simp only [Token.Fits, kind] at fits
      simp only [Understands, kind]
      obtain ⟨value, known⟩ : ∃ value, Binary64.ofText? token.raw = some value :=
        ⟨_, Binary64.ofText?_of_digits fits⟩
      refine ⟨{ literal := .number value, position := token.position }, ?_⟩
      change numberAtom token = _
      rw [numberAtom, known]
  | string | symbol =>
      simp only [Understands, kind]
      exact ⟨_, rfl⟩
  | openBrace | closeBrace | openParen | closeParen | dot | semicolon | comma =>
      simp only [Understands, kind]

end Dialect

namespace Grammar

variable {text : Text} {tokens : List Token}

theorem understands_of_tokenize (lexed : (tokenize text).1 = (tokens, none)) :
    ∀ token ∈ tokens, Dialect.standard.Understands token := by
  intro token among
  have member : token ∈ (tokenize text).1.1 := by
    rw [lexed]
    exact among
  exact Dialect.standard_understands (TokenStream.fits_of_mem_tokenize member)

theorem length_lt_of_tokenize (lexed : (tokenize text).1 = (tokens, none)) :
    tokens.length < text.length + 1 := by
  have bounded := TokenStream.length_tokenize_le text
  rw [lexed] at bounded
  exact Nat.lt_succ_of_le bounded

theorem Items.Derives.parseProgram_eq {program : Items}
    (derives : program.Derives .standard tokens) (lexed : (tokenize text).1 = (tokens, none)) :
    parseProgram .standard text = .ok program [] := by
  rcases derives with ⟨rfl, wellFormed⟩
  have parsed := Predictive.items_complete Dialect.standard_joinsSymbols program
    divides_program wellFormed (understands_of_tokenize lexed) closed_nil
    (length_lt_of_tokenize lexed)
  rw [List.append_nil] at parsed
  rw [parseProgram, lexed]
  exact parsed

theorem Expression.WellFormed.parseExpression_eq {tree : Expression}
    (wellFormed : tree.WellFormed .standard [])
    (lexed : (tokenize text).1 = (tree.tokens, none)) :
    parseExpression .standard text = .ok tree [] := by
  have ended : AtEnd none [] := ⟨fun _ => rfl, rfl⟩
  have parsed := Predictive.expressionWithin_complete Dialect.standard_joinsSymbols tree
    wellFormed (understands_of_tokenize lexed) ended (length_lt_of_tokenize lexed)
  rw [List.append_nil] at parsed
  rw [parseExpression, lexed]
  exact parsed

theorem Expression.WellFormed.readText_eq {tree : Expression}
    (wellFormed : tree.WellFormed .standard []) (lexed : (tokenize text).1 = (tree.tokens, none)) :
    readText .standard text = .ok (tree.node .standard) := by
  rw [readText, Reading.onText_expression, wellFormed.parseExpression_eq lexed]
  rfl

theorem derives_of_parseProgram {program : Items} {rest : List Token}
    (lexed : (tokenize text).1 = (tokens, none))
    (parsed : parseProgram .standard text = .ok program rest) :
    program.Derives .standard tokens := by
  rw [parseProgram, lexed] at parsed
  obtain ⟨same, wellFormed, closed⟩ := Predictive.items_sound
    (Predictive.expressionWithin_sound Dialect.standard_joinsSymbols _) parsed
  obtain rfl := closed.eq_nil
  rw [List.append_nil] at same
  exact ⟨same.symm, wellFormed⟩

end Grammar

open Grammar

/-- A text that is cut into tokens to its end is read without a report exactly when the grammar
derives its tokens, the forms are those that the grammar assigns, and there is only one way to
derive them. The infix symbols of the grammar are the operator symbols other than `=`. -/
theorem readProgram_iff_derives {text : Text} {tokens : List Token}
    (lexed : (tokenize text).1 = (tokens, none)) (file : Option Text) :
    (∀ forms, readProgram .standard file text = .ok { forms, diagnostics := [] } ↔
      ∃ program : Items, program.Derives .standard tokens ∧ program.nodes .standard = forms) ∧
    (∀ program program' : Items, program.Derives .standard tokens →
      program'.Derives .standard tokens → program = program') ∧
    ∀ token, Dialect.standard.isInfix token = true ↔
      token.kind = .symbol ∧ token.raw ≠ ['='] ∧
        ∀ character ∈ token.raw, character ∈ ['-', '+', '=', '<', '>', '&'] := by
  refine ⟨fun forms => ⟨?_, ?_⟩, ?_, ?_⟩
  · intro accepted
    rw [readProgram, Reading.onText_programItems] at accepted
    cases parsed : parseProgram .standard text with
    | ok program rest =>
        rw [parsed] at accepted
        cases accepted
        exact ⟨program, derives_of_parseProgram lexed parsed, rfl⟩
    | error stop rest =>
        rw [parsed] at accepted
        cases fault : stop.toFault text rest with
        | _ =>
            simp only [answer, fault] at accepted
            cases accepted
  · intro claimed
    rcases claimed with ⟨program, derives, rfl⟩
    rw [readProgram, Reading.onText_programItems, derives.parseProgram_eq lexed]
    rfl
  · intro program program' derives derives'
    have same := (derives.parseProgram_eq lexed).symm.trans (derives'.parseProgram_eq lexed)
    cases same
    rfl
  · intro token
    rw [Dialect.standard_isInfix_iff]
    simp only [Text.isOperator, decide_eq_true_eq]

/-- The one derivation of `a+b`. -/
theorem readProgram_sum_derives :
    ∃ program : Items, readProgram .standard none ['a', '+', 'b'] =
      .ok { forms := program.nodes .standard, diagnostics := [] } ∧ program.tokens.length = 3 := by
  let left : Token := ⟨.symbol, ['a'], ⟨0, 0⟩⟩
  let operator : Token := ⟨.symbol, ['+'], ⟨0, 1⟩⟩
  let right : Token := ⟨.symbol, ['b'], ⟨0, 2⟩⟩
  let sum : Expression :=
    .operation (.implicitSend left .absent) operator (.single (.implicitSend right .absent))
  have lexed : (tokenize ['a', '+', 'b']).1 = ([left, operator, right], none) := by decide
  have derives : (Items.first sum .ended).Derives .standard [left, operator, right] := by
    refine ⟨rfl, ⟨trivial, ⟨rfl, ?_, ?_⟩, rfl, rfl, ?_, ?_⟩, trivial⟩
    all_goals
      intro impossible
      cases impossible
  refine ⟨.first sum .ended, ?_, rfl⟩
  exact ((readProgram_iff_derives lexed none).1 _).mpr ⟨_, derives, rfl⟩

end MessageForms
