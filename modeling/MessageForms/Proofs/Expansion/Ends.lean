import MessageForms.Proofs.Expansion.Forms
import MessageForms.Proofs.Expansion.Standard
import MessageForms.Proofs.Grammar.Outcome

set_option autoImplicit false

/-! How reading and walking a text ends. With the standard dialect and table there are three ways:
the reader refuses the text, every form is walked or reported, or a character that no token starts
with ends the run. No other fault can be reached from a text. -/

namespace MessageForms

open TokenStream (tokenize)
open Grammar

def Complaint.IsOfReader : Complaint → Prop
  | unterminatedString | endOfInput _ | delimiterExpected _ _ | expressionExpected | bodyExpected
  | contentAfterBody => True
  | _ => False

theorem Complaint.IsSyntactic.isOfReader {cause : Complaint} (syntactic : cause.IsSyntactic) :
    cause.IsOfReader := by
  cases cause <;> trivial

theorem Complaint.IsOfReader.family {cause : Complaint} (ofReader : cause.IsOfReader) :
    cause.family = .reading := by
  cases cause <;> first
    | rfl
    | exact ofReader.elim

theorem readProgram_cases (file : Option Text) (text : Text) :
    (∃ problem : Problem, problem.complaint.IsOfReader ∧ readProgram .standard file text =
      .ok { forms := [], diagnostics := [problem.diagnostic file] }) ∨
    (∃ forms, readProgram .standard file text = .ok { forms, diagnostics := [] }) ∨
    ∃ character position preview pieces margin others,
      readProgram .standard file text = .error (.unclassified character position preview) ∧
      MaximalMunch [] text pieces margin (character :: others) ∧
      Text.isBlank character = false ∧ TokenKind.ofChar? character = none := by
  obtain ⟨pieces, margin, rest, division, tokenized⟩ := TokenStream.exists_tokenize_eq text
  cases parsed : parseProgram .standard text with
  | ok program left => exact .inr (.inl ⟨_, readProgram_of_parse file parsed⟩)
  | error stop left =>
      have parsedTokens := parsed
      rw [parseProgram] at parsedTokens
      have reason := stops_program _ (allFit_of_tokenize rfl)
        (Nat.lt_succ_of_le (TokenStream.length_tokenize_le text)) stop left parsedTokens
      cases stop with
      | complaint cause =>
          exact .inl ⟨_, reason.1.isOfReader, readProgram_of_complaint file parsed⟩
      | fault fault =>
          have reads := readProgram_of_fault file parsed
          rw [tokenized] at reason
          dsimp only at reason
          cases division.stuck with
          | ended => cases reason
          | @unknown character others visible unknown =>
              have other : character ≠ '"' := by
                intro quote
                subst quote
                cases unknown
              rw [stopFault?, if_neg other] at reason
              cases reason
              exact .inr (.inr ⟨_, _, _, _, _, _, reads, division, visible, unknown⟩)
          | unclosed unquoted =>
              cases reason
              exact .inl ⟨_, by trivial, reads⟩

namespace MacroTable

variable (limit : StepLimit) (file : Option Text) (text : Text)

/-- The reader refuses the text, and nothing else is reported. -/
def EndsRefused : Prop :=
  ∃ problem : Problem, problem.complaint.family = .reading ∧ problem.complaint.IsOfReader ∧
    readProgram .standard file text =
      .ok { forms := [], diagnostics := [problem.diagnostic file] } ∧
    Comes (standard.readAndWalk limit .standard file text)
      (.ok { forms := [], diagnostics := [problem.diagnostic file] })

/-- Each of the forms that were read is walked or reported. A report is about something inside of a
form that was to become a definition. -/
def EndsWalked : Prop :=
  ∃ forms program, readProgram .standard file text = .ok { forms, diagnostics := [] } ∧
    Comes (standard.readAndWalk limit .standard file text) (.ok program) ∧
    program.forms.length + program.diagnostics.length = forms.length ∧
    ∀ report ∈ program.diagnostics, ∃ problem : Problem, report = problem.diagnostic file ∧
      problem.IsOfDefinition ∧
      (problem.complaint.family = .building ∨ problem.complaint.family = .unsupported) ∧
      problem.complaint ∉ [.notAClass, .classNotAMethod, .writeKeywordMissing]

/-- Behind complete tokens stands a character that is no blank and starts no token. -/
def EndsStray : Prop :=
  ∃ character position preview pieces margin others,
    (∀ log, ∃ after, standard.readAndWalk limit .standard file text log =
      .error (.unclassified character position preview) after) ∧
    readProgram .standard file text = .error (.unclassified character position preview) ∧
    MaximalMunch [] text pieces margin (character :: others) ∧
    Text.isBlank character = false ∧ TokenKind.ofChar? character = none

section Ending

variable {limit : StepLimit} {file : Option Text} {text : Text}

theorem ends_cases (allowed : limit.AllowsOne) (file : Option Text) (text : Text) :
    EndsRefused limit file text ∨ EndsWalked limit file text ∨ EndsStray limit file text := by
  rcases readProgram_cases file text with
    ⟨problem, ofReader, reads⟩ | ⟨forms, reads⟩ |
      ⟨character, position, preview, pieces, margin, others, fails, division, visible, unknown⟩
  · refine .inl ⟨problem, ofReader.family, ofReader, reads, ?_⟩
    exact comes_readAndWalk reads (comes_pure _)
  · obtain ⟨program, comes, -, count, sources⟩ :=
      exists_walkForms standard_makesDefinitions allowed (.moving id) file forms
    refine .inr (.inl ⟨forms, program, reads, comes_readAndWalk reads comes, count, ?_⟩)
    intro report among
    obtain ⟨problem, raises, rfl⟩ := sources report among
    obtain ⟨ofDefinition, inForm⟩ := raises.isOfDefinition
    exact ⟨problem, rfl, ofDefinition, inForm.family, inForm.not_guard⟩
  · exact .inr (.inr ⟨character, position, preview, pieces, margin, others,
      fun log => ⟨log, readAndWalk_of_error fails log⟩, fails, division, visible, unknown⟩)

/-! The three ways differ in what is read. -/

theorem EndsRefused.not_endsWalked (refused : EndsRefused limit file text) :
    ¬ EndsWalked limit file text := by
  intro walked
  obtain ⟨problem, -, -, reads, -⟩ := refused
  obtain ⟨forms, program, reads', -⟩ := walked
  rw [reads] at reads'
  cases reads'

theorem EndsRefused.not_endsStray (refused : EndsRefused limit file text) :
    ¬ EndsStray limit file text := by
  intro stray
  obtain ⟨problem, -, -, reads, -⟩ := refused
  obtain ⟨_, _, _, _, _, _, -, fails, -⟩ := stray
  rw [reads] at fails
  cases fails

theorem EndsWalked.not_endsStray (walked : EndsWalked limit file text) :
    ¬ EndsStray limit file text := by
  intro stray
  obtain ⟨forms, program, reads, -⟩ := walked
  obtain ⟨_, _, _, _, _, _, -, fails, -⟩ := stray
  rw [reads] at fails
  cases fails

end Ending

/-- A run ends in exactly one of the three ways, so the only fault that it can end with is that of a
stray character. -/
theorem readAndWalk_ends {limit : StepLimit} (allowed : limit.AllowsOne) (file : Option Text)
    (text : Text) :
    (EndsRefused limit file text ∨ EndsWalked limit file text ∨ EndsStray limit file text) ∧
      ¬ (EndsRefused limit file text ∧ EndsWalked limit file text) ∧
      ¬ (EndsRefused limit file text ∧ EndsStray limit file text) ∧
      ¬ (EndsWalked limit file text ∧ EndsStray limit file text) ∧
      ∀ log fault after, standard.readAndWalk limit .standard file text log = .error fault after →
        ∃ character position preview, fault = .unclassified character position preview := by
  have ends := ends_cases allowed file text
  refine ⟨ends, fun both => both.1.not_endsWalked both.2, fun both => both.1.not_endsStray both.2,
    fun both => both.1.not_endsStray both.2, ?_⟩
  intro log fault after failed
  rcases ends with
    ⟨problem, -, -, -, comes⟩ | ⟨forms, program, -, comes, -⟩ |
      ⟨character, position, preview, _, _, _, fails, -⟩
  · obtain ⟨final, done⟩ := comes log
    rw [failed] at done
    cases done
  · obtain ⟨final, done⟩ := comes log
    rw [failed] at done
    cases done
  · obtain ⟨final, done⟩ := fails log
    rw [failed] at done
    cases done
    exact ⟨character, position, preview, rfl⟩

/-- The form `let a` is read, so it is walked or reported. -/
theorem readAndWalk_ends_let : EndsWalked .standard none ['l', 'e', 't', ' ', 'a'] := by
  obtain ⟨forms, reads⟩ : ∃ forms, readProgram .standard none ['l', 'e', 't', ' ', 'a'] =
      .ok { forms, diagnostics := [] } := ⟨_, rfl⟩
  rcases (readAndWalk_ends StepLimit.standard_allowsOne none ['l', 'e', 't', ' ', 'a']).1 with
    refused | walked | stray
  · obtain ⟨problem, -, -, refuses, -⟩ := refused
    rw [reads] at refuses
    cases refuses
  · exact walked
  · obtain ⟨_, _, _, _, _, _, -, fails, -⟩ := stray
    rw [reads] at fails
    cases fails

end MacroTable

end MessageForms
