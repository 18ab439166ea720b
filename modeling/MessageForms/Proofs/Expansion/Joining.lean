import MessageForms.Proofs.Expansion.Forms
import MessageForms.Proofs.Expansion.Standard
import MessageForms.Proofs.Grammar.Joining

set_option autoImplicit false

/-! Texts that are joined by a semicolon. Reading and walking the whole gives what the first text
gives, and behind it what the second gives, at places that go on counting. Walks have no memory, so
a form of one text that cannot be expanded has no part in what becomes of the other. -/

namespace MessageForms.MacroTable

open TokenStream (tokenize)

/-- Lists of forms are walked apart, and places of a list can be moved before or after the walk. -/
theorem exists_walkForms_append {table : MacroTable} (makes : table.MakesDefinitions)
    {limit : StepLimit} (allowed : limit.AllowsOne) (labels : Relabeling) (file : Option Text)
    (forms others : List Node) :
    ∃ program program', Comes (table.walkForms limit file forms) (.ok program) ∧
      Comes (table.walkForms limit file others) (.ok program') ∧
      Comes (table.walkForms limit file (forms ++ others.map (·.relabel labels)))
        (.ok (program.append (program'.relabel labels))) := by
  obtain ⟨program, comes, -⟩ := exists_walkForms makes allowed labels file forms
  obtain ⟨program', comes', moved, -⟩ := exists_walkForms makes allowed labels file others
  exact ⟨program, program', comes, comes', comes_walkForms_append makes allowed comes moved⟩

/-- A text with a semicolon and another text behind it is read as the forms of both, and walked to
the nodes and reports of both. What comes from the second text stands at places that are counted on
from the semicolon. -/
theorem readAndWalk_append_semicolon {text text' : Text} {forms forms' : List Node}
    {file : Option Text}
    (reads : readProgram .standard file text = .ok { forms, diagnostics := [] })
    (nonempty : forms ≠ [])
    (undelimited : ∀ last ∈ (tokenize text).1.1.getLast?,
      last.kind ≠ .comma ∧ last.kind ≠ .semicolon)
    (reads' : readProgram .standard file text' = .ok { forms := forms', diagnostics := [] })
    {limit : StepLimit} (allowed : limit.AllowsOne) :
    readProgram .standard file (text ++ ';' :: text') =
        .ok { forms := forms ++
                forms'.map (·.relabel (.moving (Position.behind (text ++ [';']))))
              diagnostics := [] } ∧
      ∃ program program',
        Comes (standard.readAndWalk limit .standard file text) (.ok program) ∧
        Comes (standard.readAndWalk limit .standard file text') (.ok program') ∧
        Comes (standard.readAndWalk limit .standard file (text ++ ';' :: text'))
          (.ok (program.append
            (program'.relabel (.moving (Position.behind (text ++ [';'])))))) := by
  have whole := readProgram_append_semicolon reads nonempty undelimited reads'
  obtain ⟨program, program', comes, comes', together⟩ := exists_walkForms_append
    standard_makesDefinitions allowed (.moving (Position.behind (text ++ [';']))) file forms forms'
  exact ⟨whole, program, program', comes_readAndWalk reads comes, comes_readAndWalk reads' comes',
    comes_readAndWalk whole together⟩

/-- The text `a;let b`, of a form that is kept and one that is reported. -/
theorem readAndWalk_append_semicolon_let :
    ∃ program program',
      Comes (standard.readAndWalk .standard .standard none ['a']) (.ok program) ∧
      Comes (standard.readAndWalk .standard .standard none ['l', 'e', 't', ' ', 'b'])
        (.ok program') ∧
      Comes (standard.readAndWalk .standard .standard none ['a', ';', 'l', 'e', 't', ' ', 'b'])
        (.ok (program.append (program'.relabel (.moving (Position.behind ['a', ';']))))) := by
  have undelimited : ∀ last ∈ (tokenize ['a']).1.1.getLast?,
      last.kind ≠ .comma ∧ last.kind ≠ .semicolon := by
    decide
  obtain ⟨form, reads⟩ : ∃ form, readProgram .standard none ['a'] =
      .ok { forms := [form], diagnostics := [] } := ⟨_, rfl⟩
  obtain ⟨forms', reads'⟩ : ∃ forms', readProgram .standard none ['l', 'e', 't', ' ', 'b'] =
      .ok { forms := forms', diagnostics := [] } := ⟨_, rfl⟩
  exact (readAndWalk_append_semicolon reads (List.cons_ne_nil form []) undelimited reads'
    StepLimit.standard_allowsOne).2

end MessageForms.MacroTable
