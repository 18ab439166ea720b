import MessageForms.Proofs.Expansion.Forms
import MessageForms.Proofs.Expansion.Standard
import MessageForms.Proofs.Grammar.Labels
import MessageForms.Proofs.Grammar.ValidPrefix

set_option autoImplicit false

/-! Layout never changes meaning. Two texts whose tokens have the same signs are those of one
numbered text at other places, so reading and walking give what the numbered text gives, with two
sorts of labels; and labels show neither in equality nor in messages. -/

namespace MessageForms

open TokenStream (tokenize)
open Grammar

theorem Diagnostic.message_moved (place : Position → Position) (diagnostic : Diagnostic) :
    (diagnostic.moved place).message = diagnostic.message := by
  unfold moved
  split <;> rfl

theorem readProgram_of_numbered {text : Text} {tokens : List Token} {base : Items}
    (file : Option Text) (lexed : (tokenize text).1 = (tokens, none))
    (derives : base.Derives .standard (numbered (tokens.map Token.sign)))
    (parsed : parseTokens tokens = .ok (base.moved (placesOf tokens)) []) :
    readProgram .standard file text =
      .ok { forms := (base.nodes .standard).map (·.relabel (.settling (placesOf tokens)))
            diagnostics := [] } := by
  have fits : AllFit base.tokens := by
    rw [derives.tokens_eq]
    exact allFit_numbered (allFit_of_tokenize lexed)
  rw [← parseProgram_eq_parseTokens lexed] at parsed
  rw [readProgram_of_parse file parsed, ← base.nodes_moved (.settling (placesOf tokens)) fits]
  rfl

section Layouts

variable {text text' : Text} {tokens tokens' : List Token}
  (lexed : (tokenize text).1 = (tokens, none)) (lexed' : (tokenize text').1 = (tokens', none))
  (same : tokens'.map Token.sign = tokens.map Token.sign) (file : Option Text)

include lexed lexed' same

/-- Texts whose tokens have the same signs are read as the same forms with different labels, or
refused for the same reason at the same token. -/
theorem readProgram_layout_cases :
    (∃ nodes : List Node,
      readProgram .standard file text =
        .ok { forms := nodes.map (·.relabel (.settling (placesOf tokens))), diagnostics := [] } ∧
      readProgram .standard file text' =
        .ok { forms := nodes.map (·.relabel (.settling (placesOf tokens'))), diagnostics := [] }) ∨
    ∃ cause index, index ≤ tokens.length ∧ index ≤ tokens'.length ∧
      readProgram .standard file text =
        .ok { forms := []
              diagnostics := [(upcomingProblem text (tokens.drop index) cause).diagnostic file] } ∧
      readProgram .standard file text' =
        .ok { forms := []
              diagnostics :=
                [(upcomingProblem text' (tokens'.drop index) cause).diagnostic file] } := by
  have fits := allFit_of_tokenize lexed
  have fits' := allFit_of_tokenize lexed'
  have sizes := congrArg List.length same
  rcases parseTokens_numbered_cases fits with
    ⟨base, derives, parsed⟩ | ⟨cause, front, rest, -, split, stoppedBase, stopped⟩
  · have derives' := derives
    rw [← same] at derives'
    have parsed' := parseTokens_of_numbered (derives'.parseTokens_eq (allFit_numbered fits'))
    exact .inl ⟨base.nodes .standard, readProgram_of_numbered file lexed derives parsed,
      readProgram_of_numbered file lexed' derives' parsed'⟩
  · have within := congrArg List.length split
    simp only [numbered, List.length_mapIdx, List.length_map, List.length_append] at within sizes
    rw [← same] at split stoppedBase
    have stopped' := parseTokens_of_numbered_error fits' split stoppedBase
    rw [← parseProgram_eq_parseTokens lexed] at stopped
    rw [← parseProgram_eq_parseTokens lexed'] at stopped'
    exact .inr ⟨cause, front.length, by omega, by omega, readProgram_of_complaint file stopped,
      readProgram_of_complaint file stopped'⟩

/-- Texts whose tokens have the same signs are read as equal forms, or refused with the same message
at the same token. They are walked to equal nodes, with the same messages. -/
theorem layout_keeps_meaning {limit : StepLimit} (allowed : limit.AllowsOne) :
    ((∃ forms forms', readProgram .standard file text = .ok { forms, diagnostics := [] } ∧
        readProgram .standard file text' = .ok { forms := forms', diagnostics := [] } ∧
        Node.allEqualBy Literal.alike forms forms' = true ∧
        Node.allEqualBy Literal.same forms forms' = true) ∨
      ∃ diagnostic diagnostic' index,
        readProgram .standard file text = .ok { forms := [], diagnostics := [diagnostic] } ∧
        readProgram .standard file text' = .ok { forms := [], diagnostics := [diagnostic'] } ∧
        diagnostic'.message = diagnostic.message ∧ diagnostic.IsAnchoredAt text tokens index ∧
        diagnostic'.IsAnchoredAt text' tokens' index) ∧
    ∃ program program',
      Comes (MacroTable.standard.readAndWalk limit .standard file text) (.ok program) ∧
      Comes (MacroTable.standard.readAndWalk limit .standard file text') (.ok program') ∧
      Node.allEqualBy Literal.same program.forms program'.forms = true ∧
      program'.diagnostics.map (·.message) = program.diagnostics.map (·.message) := by
  let labels : Relabeling := .settling (placesOf tokens)
  let labels' : Relabeling := .settling (placesOf tokens')
  rcases readProgram_layout_cases lexed lexed' same file with
    ⟨nodes, reads, reads'⟩ | ⟨cause, index, bound, bound', reads, reads'⟩
  · have equal {equal : Literal → Literal → Bool} (settles : Settles equal labels labels')
        (nodes : List Node) : Node.allEqualBy equal (nodes.map (·.relabel labels))
          (nodes.map (·.relabel labels')) = true := by
      have all := Node.allEqualBy_relabel settles nodes
      rw [Node.relabelAll_eq_map, Node.relabelAll_eq_map] at all
      exact all
    obtain ⟨program, comes, walked, -⟩ := MacroTable.exists_walkForms
      MacroTable.standard_makesDefinitions allowed labels file nodes
    obtain ⟨again, comes', walked', -⟩ := MacroTable.exists_walkForms
      MacroTable.standard_makesDefinitions allowed labels' file nodes
    cases comes.unique comes'
    refine ⟨.inl ⟨_, _, reads, reads', equal (settles_alike _ _) nodes,
      equal (settles_same _ _) nodes⟩, program.relabel labels, program.relabel labels', ?_⟩
    refine ⟨MacroTable.comes_readAndWalk reads walked, MacroTable.comes_readAndWalk reads' walked',
      equal (settles_same _ _) program.forms, ?_⟩
    simp only [Program.relabel, List.map_map, Function.comp_def, Diagnostic.message_moved]
  · exact ⟨.inr ⟨_, _, index, reads, reads', rfl,
      upcomingProblem_isAnchoredAt file text cause bound,
      upcomingProblem_isAnchoredAt file text' cause bound'⟩, _, _,
      MacroTable.comes_readAndWalk reads (comes_pure _),
      MacroTable.comes_readAndWalk reads' (comes_pure _), rfl, rfl⟩

end Layouts

/-- The texts `a+b` and `a + b`, the second on two lines. -/
theorem layout_keeps_meaning_sum :
    ∃ program program',
      Comes (MacroTable.standard.readAndWalk .standard .standard none ['a', '+', 'b'])
        (.ok program) ∧
      Comes (MacroTable.standard.readAndWalk .standard .standard none ['a', ' ', '+', '\n', 'b'])
        (.ok program') ∧
      Node.allEqualBy Literal.same program.forms program'.forms = true := by
  have lexed : (tokenize ['a', '+', 'b']).1 =
      ([⟨.symbol, ['a'], ⟨0, 0⟩⟩, ⟨.symbol, ['+'], ⟨0, 1⟩⟩, ⟨.symbol, ['b'], ⟨0, 2⟩⟩], none) := by
    decide
  have lexed' : (tokenize ['a', ' ', '+', '\n', 'b']).1 =
      ([⟨.symbol, ['a'], ⟨0, 0⟩⟩, ⟨.symbol, ['+'], ⟨0, 2⟩⟩, ⟨.symbol, ['b'], ⟨1, 0⟩⟩], none) := by
    decide
  obtain ⟨-, program, program', comes, comes', equal, -⟩ :=
    layout_keeps_meaning lexed lexed' rfl none StepLimit.standard_allowsOne
  exact ⟨program, program', comes, comes', equal⟩

end MessageForms
