import MessageForms.Proofs.Expansion.Ends
import MessageForms.Proofs.Expansion.Fixed
import MessageForms.Proofs.Grammar.Labels
import MessageForms.Proofs.Source.Rows

set_option autoImplicit false

/-! Where reports point. A report of the reader is about a token, an opening quote mark or the end
of the text, and shows the line with a caret below the place. A report of the walk is about a token:
if the places of the tokens are kept and all others exchanged, the forms stay as they are, so what
is reported about them stays as well. -/

namespace MessageForms

open TokenStream (tokenize)
open Grammar

/-! ### Places -/

/-- A place of the text that the reader can complain about, with what stands before and behind it. -/
inductive ReadingSite (text : Text) : Text → Text → Prop where
  | token {token : Token} {before following : Text} (among : token ∈ (tokenize text).1.1)
      (placed : token.position = Position.after before)
      (split : text = before ++ (token.lexeme ++ following)) :
      ReadingSite text before (token.lexeme ++ following)
  | openString {pieces : List (Text × Token)} {margin content : Text}
      (division : MaximalMunch [] text pieces margin ('"' :: content)) (unquoted : '"' ∉ content) :
      ReadingSite text (spelled pieces ++ margin) ('"' :: content)
  | ended : ReadingSite text text []

namespace ReadingSite

variable {text before rest : Text}

theorem text_eq (site : ReadingSite text before rest) : text = before ++ rest := by
  cases site with
  | token among placed split => exact split
  | openString division unquoted => exact division.text_eq
  | ended => exact (List.append_nil text).symm

theorem shown (site : ReadingSite text before rest) (character : Char) (more : Text)
    (starts : rest = character :: more) :
    character ≠ '\n' ∧ (character = '\r' → more.head? ≠ some '\n') := by
  have visible : Text.isBlank character = false := by
    cases site with
    | @token token _ following among placed split =>
        obtain ⟨start, tail, written, kind⟩ :=
          Token.exists_start (TokenStream.fits_of_mem_tokenize among)
        rw [written, List.cons_append, List.cons.injEq] at starts
        rw [← starts.1]
        exact TokenKind.isBlank_eq_false_of_ofChar? kind
    | openString division unquoted =>
        cases starts
        decide
    | ended => cases starts
  constructor
  · intro feed
    subst feed
    cases visible
  · intro returns
    subst returns
    cases visible

end ReadingSite

/-! ### Reports -/

namespace Diagnostic

/-- The report is about the place with this row and column; its own are counted from one. -/
structure PointsAt (report : Diagnostic) (row column : Nat) : Prop where
  line : report.line = some (row + 1)
  column : report.column = some (column + 1)

/-- The preview is the line of the text with the row's number and a caret below the column. Above
the caret stands the given character, or the end of the line. -/
def Previews (report : Diagnostic) (text : Text) (row column : Nat) (above : Option Char) : Prop :=
  ∃ content, Text.IsLine text row content ∧ content[column]? = above ∧
    report.preview = some (content ++ '\n' :: (List.replicate column ' ' ++ ['^']))

/-- The report is about a place that the reader can complain about, and shows it. -/
def IsOfReading (report : Diagnostic) (text : Text) : Prop :=
  ∃ before rest row column, ReadingSite text before rest ∧
    Position.after before = { row := (row : Nat), column := (column : Nat) } ∧
    report.PointsAt row column ∧ report.Previews text row column rest.head?

def IsAtToken (report : Diagnostic) (text : Text) : Prop :=
  ∃ token ∈ (tokenize text).1.1, ∃ before following row column,
    text = before ++ (token.lexeme ++ following) ∧ token.position = Position.after before ∧
    token.position = { row := (row : Nat), column := (column : Nat) } ∧ report.PointsAt row column

end Diagnostic

theorem ReadingSite.isOfReading {text before rest : Text} (site : ReadingSite text before rest)
    (file : Option Text) {problem : Problem}
    (placed : problem.position = some (Position.after before))
    (shown : problem.preview = some ((Position.after before).preview text)) :
    (problem.diagnostic file).IsOfReading text := by
  refine ⟨before, rest, _, _, site, rfl, ⟨?_, ?_⟩, ?_⟩
  · rw [Problem.diagnostic, placed]
    rfl
  · rw [Problem.diagnostic, placed]
    rfl
  · have split := site.text_eq
    have line := Text.isLine_rowAt before rest
    have above := Text.getElem?_rowAt before site.shown
    rw [← split] at line above
    exact ⟨_, line, above, shown⟩

/-! ### Reading -/

/-- A complaint in front of the tokens that are left is about the first of them, or about the end
of the text. -/
theorem isOfReading_of_complaint {text : Text} {front left : List Token}
    (split : (tokenize text).1.1 = front ++ left) (cause : Complaint) (file : Option Text) :
    ((upcomingProblem text left cause).diagnostic file).IsOfReading text := by
  cases left with
  | nil => exact ReadingSite.ended.isOfReading file rfl rfl
  | cons token others =>
      have member : token ∈ (tokenize text).1.1 := by
        rw [split]
        exact List.mem_append_right front List.mem_cons_self
      obtain ⟨before, following, written, placed⟩ :=
        TokenStream.exists_place_of_mem_tokenize member
      refine (ReadingSite.token member placed written).isOfReading file ?_ ?_
      · exact congrArg some placed
      · exact congrArg (fun place : Position => some (place.preview text)) placed

theorem isOfReading_of_ending {text : Text} {problem : Problem}
    (stops : (tokenize text).1.2 = some (.problem problem)) (file : Option Text) :
    (problem.diagnostic file).IsOfReading text := by
  obtain ⟨pieces, margin, rest, division, tokenized⟩ := TokenStream.exists_tokenize_eq text
  rw [tokenized] at stops
  dsimp only at stops
  cases division.stuck with
  | ended => cases stops
  | @unknown character others visible unknown =>
      have other : character ≠ '"' := by
        intro quote
        subst quote
        cases unknown
      rw [stopFault?, if_neg other] at stops
      cases stops
  | unclosed unquoted =>
      cases stops
      refine (ReadingSite.openString division unquoted).isOfReading file rfl ?_
      rw [division.text_eq]

theorem isOfReading_of_readProgram {file : Option Text} {text : Text} {program : Program}
    (reads : readProgram .standard file text = .ok program) :
    ∀ report ∈ program.diagnostics, report.IsOfReading text := by
  cases parsed : parseProgram .standard text with
  | ok tree left =>
      rw [readProgram_of_parse file parsed] at reads
      cases reads
      exact nofun
  | error stop left =>
      have parsedTokens := parsed
      rw [parseProgram] at parsedTokens
      have reason := stops_program _ (allFit_of_tokenize rfl)
        (Nat.lt_succ_of_le (TokenStream.length_tokenize_le text)) stop left parsedTokens
      cases stop with
      | complaint cause =>
          rw [readProgram_of_complaint file parsed] at reads
          cases reads
          obtain ⟨-, front, split, -⟩ := reason
          exact List.forall_mem_singleton.mpr (isOfReading_of_complaint split cause file)
      | fault fault =>
          rw [readProgram_of_fault file parsed] at reads
          cases fault with
          | problem problem =>
              cases reads
              exact List.forall_mem_singleton.mpr (isOfReading_of_ending reason file)
          | _ => cases reads

/-! ### Walking -/

/-- The labels that keep the places of the tokens and exchange all others. -/
def Relabeling.keeping (tokens : List Token) : Relabeling :=
  .moving fun position =>
    if position ∈ tokens.map Token.position then position
    else { position with row := position.row + 1 }

theorem Relabeling.place_keeping_eq_iff {tokens : List Token} {position : Position} :
    (keeping tokens).place position = position ↔ position ∈ tokens.map Token.position := by
  constructor
  · intro kept
    apply Decidable.by_contra
    intro absent
    simp only [keeping, moving, if_neg absent] at kept
    have rows := congrArg Position.row kept
    dsimp only at rows
    omega
  · intro among
    exact if_pos among

theorem map_moved_keeping (tokens : List Token) :
    tokens.map (Token.moved (Relabeling.keeping tokens).place) = tokens := by
  have each : ∀ token ∈ tokens, token.moved (Relabeling.keeping tokens).place = token := by
    intro token among
    have kept := Relabeling.place_keeping_eq_iff.mpr (List.mem_map_of_mem among)
    rw [Token.moved, kept]
  rw [List.map_congr_left each, List.map_id']

theorem Grammar.Items.Derives.isFixed {program : Items} {tokens : List Token}
    (derives : program.Derives .standard tokens) (fits : AllFit tokens) :
    ∀ node ∈ program.nodes .standard, node.IsFixed (.keeping tokens) := by
  let labels := Relabeling.keeping tokens
  have parsed := derives.parseTokens_eq fits
  have again := parseTokens_moved labels.place parsed
  rw [map_moved_keeping, parsed] at again
  have same : program = program.moved labels.place := by
    injection again
  have nodes := program.nodes_moved labels (by rw [derives.tokens_eq]; exact fits)
  rw [← same] at nodes
  exact Node.isFixed_of_map_relabel nodes.symm

theorem isAtToken_of_walkForms {file : Option Text} {text : Text} {forms : List Node}
    {limit : StepLimit} {program : Program} {log after : Array LogEntry}
    (reads : readProgram .standard file text = .ok { forms, diagnostics := [] })
    (walks : MacroTable.standard.walkForms limit file forms log = .ok program after) :
    ∀ report ∈ program.diagnostics, report.IsAtToken text := by
  intro report among
  obtain ⟨tokens, tree, lexed, derives, rfl⟩ := exists_derives_of_readProgram reads
  have fixed := derives.isFixed (allFit_of_tokenize lexed)
  obtain ⟨problem, kept, raises, rfl⟩ := (MacroTable.fixes_walkForms
    MacroTable.standard_makesDefinitions limit file fixed).ok log program after walks report among
  obtain ⟨position, placed⟩ := Option.isSome_iff_exists.mp raises.isInForm.2
  have stays : (Relabeling.keeping tokens).place position = position := by
    have positions := congrArg Problem.position kept
    rw [Problem.relabel, placed] at positions
    exact Option.some.inj positions
  obtain ⟨token, member, rfl⟩ := List.mem_map.mp (Relabeling.place_keeping_eq_iff.mp stays)
  rw [← show (tokenize text).1.1 = tokens by rw [lexed]] at member
  obtain ⟨before, following, split, standing⟩ := TokenStream.exists_place_of_mem_tokenize member
  refine ⟨token, member, before, following, _, _, split, standing, standing, ?_, ?_⟩
  · rw [Problem.diagnostic, placed, standing]
    rfl
  · rw [Problem.diagnostic, placed, standing]
    rfl

/-- Every report points into the text. What reading reports is about a token, the opening mark of a
string without an end, or the end of the text, and shows the line there with a caret below the
character in question; whatever else reading and walking report is about a token. -/
theorem MacroTable.standard_reports_point_into_text (file : Option Text) (text : Text) :
    (∀ program, readProgram .standard file text = .ok program →
      ∀ report ∈ program.diagnostics, report.IsOfReading text) ∧
    ∀ limit log program after,
      standard.readAndWalk limit .standard file text log = .ok program after →
      ∃ read, readProgram .standard file text = .ok read ∧
        ∀ report ∈ program.diagnostics, report ∈ read.diagnostics ∨ report.IsAtToken text := by
  refine ⟨fun program reads => isOfReading_of_readProgram reads, ?_⟩
  intro limit log program after walks
  rcases readProgram_cases file text with
    ⟨problem, -, reads⟩ | ⟨forms, reads⟩ | ⟨_, _, _, _, _, _, fails, -⟩
  · refine ⟨_, reads, fun report among => .inl ?_⟩
    obtain ⟨final, done⟩ := comes_readAndWalk reads (comes_pure _) log
    rw [walks] at done
    cases done
    exact among
  · refine ⟨_, reads, fun report among => .inr ?_⟩
    rw [readAndWalk, reads] at walks
    obtain ⟨walked, final, done, rest⟩ := exists_of_bind_ok walks
    cases rest
    exact isAtToken_of_walkForms reads done report among
  · rw [readAndWalk_of_error fails] at walks
    cases walks

/-- The reader's report about `(;` shows the line, and the walk's report about `let a` is about a
token. -/
theorem MacroTable.standard_reports_point_into_text_let :
    (∃ report, readProgram .standard none ['(', ';'] =
        .ok { forms := [], diagnostics := [report] } ∧ report.IsOfReading ['(', ';']) ∧
    ∃ report after, standard.readAndWalk .standard .standard none ['l', 'e', 't', ' ', 'a'] #[] =
        .ok { forms := [], diagnostics := [report] } after ∧
      report.IsAtToken ['l', 'e', 't', ' ', 'a'] := by
  constructor
  · obtain ⟨report, reads⟩ : ∃ report, readProgram .standard none ['(', ';'] =
        .ok { forms := [], diagnostics := [report] } := ⟨_, rfl⟩
    have points := (standard_reports_point_into_text none ['(', ';']).1 _ reads
    exact ⟨report, reads, points report List.mem_cons_self⟩
  · obtain ⟨report, after, walks⟩ : ∃ report after,
        standard.readAndWalk .standard .standard none ['l', 'e', 't', ' ', 'a'] #[] =
          .ok { forms := [], diagnostics := [report] } after := ⟨_, _, rfl⟩
    obtain ⟨forms, accepted⟩ : ∃ forms, readProgram .standard none ['l', 'e', 't', ' ', 'a'] =
        .ok { forms, diagnostics := [] } := ⟨_, rfl⟩
    obtain ⟨read, reads, points⟩ :=
      (standard_reports_point_into_text none ['l', 'e', 't', ' ', 'a']).2 _ _ _ _ walks
    rw [accepted] at reads
    cases reads
    refine ⟨report, after, walks, (points report List.mem_cons_self).resolve_left ?_⟩
    exact List.not_mem_nil

end MessageForms
