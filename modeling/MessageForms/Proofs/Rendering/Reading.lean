import MessageForms.Proofs.Rendering.Written

set_option autoImplicit false

/-! What is written down is read back. Every well-shaped tree has a rendering, every rendering has a
layout, and whichever are chosen, the tree is read again. -/

namespace MessageForms

open Grammar
open TokenStream (tokenize)
open Sign (mark)
open Reading (argumentDelimiters bodyDelimiters)

/-! ### There are renderings -/

theorem Atom.IsSelector.exists_sign {selector : Atom} (isSelector : selector.IsSelector) :
    ∃ sign : Sign, sign.Spells selector := by
  rcases isSelector with ⟨spelling, written, named⟩
  exact ⟨{ kind := .symbol, raw := spelling }, rfl, written, named⟩

theorem Literal.IsWritable.exists_sign {literal : Literal} (writable : literal.IsWritable) :
    ∃ sign : Sign, sign.Denotes literal := by
  cases writable with
  | string unquoted => exact ⟨_, .string unquoted⟩
  | number run known close => exact ⟨_, .number run known close⟩

mutual

theorem exists_renders (node : Node) (shaped : node.WellShaped)
    (after : List Sign) : ∃ signs, Renders node signs after := by
  match node with
  | .atom value =>
      obtain ⟨sign, denotes⟩ := Literal.IsWritable.exists_sign shaped
      exact ⟨[sign], .atom denotes⟩
  | .macroForm [] position =>
      have several := shaped.1.several
      cases several
  | .macroForm (first :: others) position =>
      rcases shaped with ⟨ordered, firstShaped, othersShaped⟩
      have nonempty : others ≠ [] := by
        intro same
        subst same
        have several := ordered.several
        cases several with
        | step impossible => cases impossible
      obtain ⟨more, rest⟩ := exists_rendersModifiers others othersShaped nonempty after
      obtain ⟨signs, modifier⟩ := exists_renders first firstShaped (more ++ after)
      exact ⟨signs ++ more, .form modifier rest⟩
  | .parenthesized inner position =>
      obtain ⟨signs, items⟩ := exists_rendersItems argumentDelimiters (by decide) inner shaped
        (mark .closeParen :: after)
      exact ⟨_, .parenthesized items⟩
  | .braced inner position =>
      obtain ⟨signs, items⟩ := exists_rendersItems bodyDelimiters (by decide) inner shaped
        (mark .closeBrace :: after)
      exact ⟨_, .braced items⟩
  | .implicitSend selector arguments position =>
      rcases shaped.1.exists_sign with ⟨name, spells⟩
      obtain ⟨signs, items⟩ := exists_rendersItems argumentDelimiters (by decide) arguments
        shaped.2 (mark .closeParen :: after)
      refine ⟨_, .implicitSend spells (.listed items) ?_⟩
      intro dotted
      cases dotted
  | .partialSend selector arguments position =>
      rcases shaped.1.exists_sign with ⟨name, spells⟩
      obtain ⟨signs, items⟩ := exists_rendersItems argumentDelimiters (by decide) arguments
        shaped.2 (mark .closeParen :: after)
      exact ⟨_, .partialSend spells (.listed items)⟩
  | .targetedSend target selector [] position =>
      rcases shaped.1.exists_sign with ⟨name, spells⟩
      obtain ⟨signs, receiver⟩ := exists_renders target shaped.2.2.1 after
      exact ⟨name :: signs, .dotSend spells receiver⟩
  | .targetedSend target selector [argument] position =>
      rcases shaped.1.exists_sign with ⟨name, spells⟩
      obtain ⟨right, operand⟩ := exists_renders argument shaped.2.2.2.1 after
      obtain ⟨left, receiver⟩ := exists_renders target shaped.2.2.1 (name :: (right ++ after))
      exact ⟨left ++ name :: right, .operation receiver spells operand⟩
  | .targetedSend target selector (_ :: _ :: _) position =>
      rcases shaped.2.1 with ⟨one, -⟩ | ⟨none, -⟩
      · cases one
      · cases none
  | .classDefinition _ _ _ _ _ _ _ => exact shaped.elim
  | .methodDefinition _ _ _ _ _ _ => exact shaped.elim
  | .lexicalVariable _ _ _ _ _ _ => exact shaped.elim

theorem exists_rendersItems (delimiters : List TokenKind) (divides : .comma ∈ delimiters)
    (nodes : List Node) (shaped : Node.AllWellShaped nodes) (after : List Sign) :
    ∃ signs, RendersItems delimiters nodes signs after := by
  match nodes with
  | [] => exact ⟨[], .empty⟩
  | node :: others =>
      obtain ⟨more, rest⟩ := exists_rendersMore delimiters divides others shaped.2 after
      obtain ⟨signs, item⟩ := exists_renders node shaped.1 (more ++ after)
      exact ⟨signs ++ more, .first item rest⟩

theorem exists_rendersMore (delimiters : List TokenKind) (divides : .comma ∈ delimiters)
    (nodes : List Node) (shaped : Node.AllWellShaped nodes) (after : List Sign) :
    ∃ signs, RendersMore delimiters nodes signs after := by
  match nodes with
  | [] => exact ⟨[], .ended⟩
  | node :: others =>
      obtain ⟨more, rest⟩ := exists_rendersMore delimiters divides others shaped.2 after
      obtain ⟨signs, item⟩ := exists_renders node shaped.1 (more ++ after)
      exact ⟨mark .comma :: (signs ++ more), .more divides item rest⟩

theorem exists_rendersModifiers (nodes : List Node) (shaped : Node.AllWellShaped nodes)
    (nonempty : nodes ≠ []) (after : List Sign) :
    ∃ signs, RendersModifiers nodes signs after := by
  match nodes with
  | [] => exact (nonempty rfl).elim
  | [node] =>
      obtain ⟨signs, modifier⟩ := exists_renders node shaped.1 after
      exact ⟨signs, .last modifier⟩
  | node :: next :: others =>
      obtain ⟨more, rest⟩ :=
        exists_rendersModifiers (next :: others) shaped.2 (List.cons_ne_nil _ _) after
      obtain ⟨signs, modifier⟩ := exists_renders node shaped.1 (more ++ after)
      exact ⟨signs ++ more, .more modifier rest⟩

end

theorem exists_layout (signs : List Sign) : ∃ text, Layout signs text := by
  have blank : ∀ character ∈ [' '], Text.isBlank character = true :=
    List.forall_mem_singleton.mpr rfl
  have apart : ∃ text, Layout signs text ∧
      ∀ character ∈ text.head?, Text.isBlank character = true := by
    induction signs with
    | nil =>
        refine ⟨[' '], .margin blank, ?_⟩
        intro character first
        cases first
        rfl
    | cons sign others ih =>
        rcases ih with ⟨rest, laid, behind⟩
        refine ⟨[' '] ++ (sign.text ++ rest), .sign blank laid behind, ?_⟩
        intro character first
        cases first
        rfl
  rcases apart with ⟨text, laid, -⟩
  exact ⟨text, laid⟩

/-! ### Renderings are read back -/

theorem readText_of_layout {equal : Literal → Literal → Bool} (faithful : Literal.Faithful equal)
    {node : Node} {signs : List Sign} {text : Text} (shaped : node.WellShaped)
    (renders : Renders node signs []) (laid : Layout signs text) :
    ∃ read, readText .standard text = .ok read ∧ read.equalBy equal node = true := by
  obtain ⟨tokens, lexed, listed⟩ := laid.exists_tokenize renders.fits
  obtain ⟨tree, rfl, wellFormed, same, -⟩ :=
    renders.written faithful shaped listed (List.map_nil : [].map Token.sign = [])
  exact ⟨tree.node .standard, wellFormed.readText_eq lexed, same⟩

/-- A well-shaped tree can be written down, and however that is done, reading the text gives the
tree again, up to positions. -/
theorem readText_of_renders {node : Node} (shaped : node.WellShaped) :
    (∃ signs text, Renders node signs [] ∧ Layout signs text) ∧
    ∀ signs text, Renders node signs [] → Layout signs text →
      ∃ read, readText .standard text = .ok read ∧ read.same node = true ∧
        read.alike node = true := by
  constructor
  · obtain ⟨signs, renders⟩ := exists_renders node shaped []
    obtain ⟨text, laid⟩ := exists_layout signs
    exact ⟨signs, text, renders, laid⟩
  · intro signs text renders laid
    obtain ⟨read, done, same⟩ := readText_of_layout Literal.faithful_same shaped renders laid
    obtain ⟨again, doneAgain, alike⟩ :=
      readText_of_layout Literal.faithful_alike shaped renders laid
    rw [done] at doneAgain
    cases doneAgain
    exact ⟨read, done, same, alike⟩

/-- Reading `a + "b"`. -/
theorem readText_of_renders_sum :
    ∃ read, readText .standard ['a', ' ', '+', ' ', '"', 'b', '"'] = .ok read ∧
      read.same (.targetedSend (.implicitSend ⟨.symbol ['a'], default⟩ [] default)
        ⟨.symbol ['+'], default⟩ [.atom ⟨.string ['b'], default⟩] default) = true := by
  let receiver : Node := .implicitSend ⟨.symbol ['a'], default⟩ [] default
  let operand : Node := .atom ⟨.string ['b'], default⟩
  let sum : Node := .targetedSend receiver ⟨.symbol ['+'], default⟩ [operand] default
  let a : Sign := ⟨.symbol, ['a']⟩
  let plus : Sign := ⟨.symbol, ['+']⟩
  let b : Sign := ⟨.string, ['b']⟩
  have isWord : Text.IsWord ['a'] := ⟨'a', [], rfl, rfl, List.forall_mem_nil _⟩
  have isRun : Text.IsOperatorRun ['+'] :=
    ⟨List.cons_ne_nil _ _, List.forall_mem_singleton.mpr rfl⟩
  have unquoted : '"' ∉ ['b'] := by decide
  have shaped : sum.WellShaped := by
    refine ⟨⟨['+'], .inr isRun, rfl⟩, .inl ⟨rfl, ?_, rfl, rfl⟩, ?_, .string unquoted, trivial⟩
    · exact ⟨['+'], rfl, isRun, by decide⟩
    · exact ⟨⟨['a'], .inl isWord, by decide⟩, trivial⟩
  have left : Renders receiver [a] [plus, b] :=
    .implicitSend ⟨rfl, .inl isWord, by decide⟩ (.bare (by decide)) (by decide)
  have right : Renders operand [b] [] := .atom (.string unquoted)
  have renders : Renders sum ([a] ++ plus :: [b]) [] :=
    .operation left ⟨rfl, .inr isRun, by decide⟩ right
  have space : ∀ character ∈ [' '], Text.isBlank character = true :=
    List.forall_mem_singleton.mpr rfl
  have spaced (rest : Text) : ∀ character ∈ (' ' :: rest).head?, Text.isBlank character = true := by
    intro character first
    cases first
    rfl
  have third : Layout [b] [' ', '"', 'b', '"'] :=
    @Layout.sign [' '] [] b [] space (.margin (List.forall_mem_nil _)) nofun
  have second : Layout [plus, b] [' ', '+', ' ', '"', 'b', '"'] :=
    @Layout.sign [' '] _ plus [b] space third (spaced _)
  have laid : Layout [a, plus, b] ['a', ' ', '+', ' ', '"', 'b', '"'] :=
    @Layout.sign [] _ a [plus, b] (List.forall_mem_nil _) second (spaced _)
  obtain ⟨read, done, same, -⟩ := (readText_of_renders shaped).2 _ _ renders laid
  exact ⟨read, done, same⟩

end MessageForms
