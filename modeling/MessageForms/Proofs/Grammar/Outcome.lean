import MessageForms.Proofs.Grammar.Locality
import MessageForms.Proofs.Grammar.Program
import MessageForms.Proofs.Grammar.Stopping
import MessageForms.Proofs.Rendering.Renders

set_option autoImplicit false

/-! What tokens come to as a program of the standard dialect. Any allowance that is enough for them
gives the same outcome; at other places the tokens give the same tree with its tokens moved, or the
same complaint. Since tokens with the same signs are numbered ones at other places, nothing but the
signs decides whether they are a program, and where they stop being one. -/

namespace MessageForms

open TokenStream (tokenize)

namespace Dialect

theorem standard_placeFree : standard.PlaceFree where
  number place token atom known := by
    change numberAtom token = _ at known
    change ∃ atom', numberAtom (token.moved place) = _
    rw [numberAtom] at known ⊢
    rw [Token.raw_moved]
    cases value : Binary64.ofText? token.raw with
    | some value => exact ⟨_, rfl⟩
    | none =>
        rw [value] at known
        cases known
  symbol place token atom known := ⟨_, rfl⟩
  string place token atom known := ⟨_, rfl⟩
  isInfix place token := rfl

end Dialect

namespace Grammar

def Predictive.program (ending : Option Fault) (dialect : Dialect) (allowance : Nat) :
    Parsing Items :=
  items ending (expressionWithin ending dialect allowance) Reading.bodyDelimiters none allowance

/-- Parsing tokens as a program, with an allowance that is enough for them. -/
def parseTokens (tokens : List Token) : EStateM.Result Stop (List Token) Items :=
  Predictive.program none .standard (tokens.length + 1) tokens

/-! ### The allowance -/

section Allowance

variable {tokens : List Token} {allowance : Nat}

theorem stops_program (ending : Option Fault) (fits : AllFit tokens)
    (enough : tokens.length < allowance) :
    Stops ending (CompletesItems .standard Reading.bodyDelimiters none)
      (Predictive.program ending .standard allowance) tokens := by
  have sound :=
    @Predictive.expressionWithin_sound ending .standard Dialect.standard_joinsSymbols allowance
  refine Predictive.stops_items sound ?_ divides_program ⟨enough, ?_⟩
  · exact fun _ readable =>
      Predictive.stops_expressionWithin Dialect.standard_joinsSymbols readable
  · exact fun token among => Dialect.standard_understands (fits token among)

theorem carries_program (place : Position → Position) {allowance' : Nat}
    (enough : allowance ≤ allowance') (tokens : List Token) :
    Carries place (Items.moved place) (Predictive.program none .standard allowance)
      (Predictive.program none .standard allowance') tokens :=
  carries_items
    (carries_expressionWithin Dialect.standard_joinsSymbols Dialect.standard_placeFree enough)
    _ _ enough tokens

theorem program_eq_parseTokens (fits : AllFit tokens) (enough : tokens.length < allowance) :
    Predictive.program none .standard allowance tokens = parseTokens tokens := by
  have carried := carries_program id enough tokens
  rw [Carries] at carried
  rw [parseTokens]
  cases outcome : Predictive.program none .standard (tokens.length + 1) tokens with
  | ok tree rest =>
      rw [outcome] at carried
      obtain ⟨front, split, again⟩ := carried
      have done := again rest (by rw [map_moved_id]; exact .refl rest)
      rw [map_moved_id, ← split, Items.moved_id] at done
      exact done
  | error stop rest =>
      rw [outcome] at carried
      cases stop with
      | complaint cause =>
          obtain ⟨front, split, again⟩ := carried
          have done := again rest (by rw [map_moved_id]; exact .refl rest)
          rw [map_moved_id, ← split] at done
          exact done
      | fault fault => cases stops_program none fits (Nat.lt_succ_self _) _ _ outcome

theorem allFit_of_tokenize {text : Text} {ending : Option Fault}
    (lexed : (tokenize text).1 = (tokens, ending)) : AllFit tokens := by
  intro token among
  have member : token ∈ (tokenize text).1.1 := by
    rw [lexed]
    exact among
  exact TokenStream.fits_of_mem_tokenize member

theorem parseProgram_eq_parseTokens {text : Text} (lexed : (tokenize text).1 = (tokens, none)) :
    parseProgram .standard text = parseTokens tokens := by
  rw [parseProgram, lexed]
  exact program_eq_parseTokens (allFit_of_tokenize lexed) (length_lt_of_tokenize lexed)

/-- Tokens are a program, or there is a complaint about the first of them that does not go with
those before it. -/
theorem parseTokens_cases (fits : AllFit tokens) :
    (∃ tree, parseTokens tokens = .ok tree [] ∧ tree.Derives .standard tokens) ∨
      ∃ cause front rest, parseTokens tokens = .error (.complaint cause) rest ∧
        cause.IsSyntactic ∧ tokens = front ++ rest ∧
        CompletesItems .standard Reading.bodyDelimiters none front := by
  cases outcome : parseTokens tokens with
  | ok tree rest =>
      obtain ⟨same, wellFormed, closed⟩ := Predictive.items_sound
        (Predictive.expressionWithin_sound Dialect.standard_joinsSymbols _) outcome
      obtain rfl := closed.eq_nil
      rw [List.append_nil] at same
      exact .inl ⟨tree, rfl, same.symm, wellFormed⟩
  | error stop rest =>
      have reason := stops_program none fits (Nat.lt_succ_self _) stop rest outcome
      cases stop with
      | complaint cause =>
          obtain ⟨syntactic, front, split, completes⟩ := reason
          exact .inr ⟨cause, front, rest, rfl, syntactic, split, completes⟩
      | fault fault => cases reason

theorem derives_of_parseTokens {tree : Items} {rest : List Token} (fits : AllFit tokens)
    (parsed : parseTokens tokens = .ok tree rest) : tree.Derives .standard tokens := by
  rcases parseTokens_cases fits with ⟨tree', parsed', derives⟩ | ⟨_, _, _, stopped, -⟩
  · rw [parsed] at parsed'
    cases parsed'
    exact derives
  · rw [parsed] at stopped
    cases stopped

theorem Items.Derives.parseTokens_eq {tree : Items} (derives : tree.Derives .standard tokens)
    (fits : AllFit tokens) : parseTokens tokens = .ok tree [] := by
  obtain ⟨rfl, wellFormed⟩ := derives
  have parsed := Predictive.items_complete Dialect.standard_joinsSymbols tree divides_program
    wellFormed (fun token among => Dialect.standard_understands (fits token among)) closed_nil
    (Nat.lt_succ_self _)
  rw [List.append_nil] at parsed
  exact parsed

end Allowance

/-! ### Places -/

section Places

variable {tokens front rest : List Token} {cause : Complaint} (place : Position → Position)

theorem AllFit.moved (fits : AllFit tokens) : AllFit (tokens.map (Token.moved place)) := by
  intro token among
  obtain ⟨original, member, rfl⟩ := List.mem_map.mp among
  exact fits original member

theorem parseTokens_moved {tree : Items} (parsed : parseTokens tokens = .ok tree []) :
    parseTokens (tokens.map (Token.moved place)) = .ok (tree.moved place) [] := by
  have carried := carries_program place (Nat.le_refl (tokens.length + 1)) tokens
  have outcome : Predictive.program none .standard (tokens.length + 1) tokens = .ok tree [] :=
    parsed
  rw [Carries, outcome] at carried
  obtain ⟨front, split, again⟩ := carried
  have done := again [] trivial
  rw [List.append_nil] at done split
  rw [parseTokens, List.length_map, split]
  rw [split] at done
  exact done

theorem parseTokens_stops_again
    (stopped : parseTokens (front ++ rest) = .error (.complaint cause) rest)
    {rest' : List Token} (same : SameStart (rest.map (Token.moved place)) rest')
    (fits : AllFit (front.map (Token.moved place) ++ rest')) :
    parseTokens (front.map (Token.moved place) ++ rest') = .error (.complaint cause) rest' := by
  have outcome : Predictive.program none .standard ((front ++ rest).length + 1) (front ++ rest) =
    .error (.complaint cause) rest := stopped
  let enough := max ((front ++ rest).length + 1)
    ((front.map (Token.moved place) ++ rest').length + 1)
  have carried := carries_program place (Nat.le_max_left _ _ : _ ≤ enough) (front ++ rest)
  rw [Carries, outcome] at carried
  obtain ⟨front', split, again⟩ := carried
  obtain rfl : front = front' := List.append_cancel_right split
  rw [← program_eq_parseTokens fits (Nat.le_max_right _ _ : _ ≤ enough)]
  exact again rest' same

end Places

/-! ### Signs -/

/-- Tokens with the given signs, each on a row of its own. -/
def numbered (signs : List Sign) : List Token :=
  signs.mapIdx fun index sign =>
    { kind := sign.kind, raw := sign.raw, position := { row := index, column := 0 } }

/-- Where the tokens stand, by the rows of the numbered ones. -/
def placesOf (tokens : List Token) (position : Position) : Position :=
  (tokens[position.row.toNat]?.map Token.position).getD default

theorem numbered_moved (tokens : List Token) :
    (numbered (tokens.map Token.sign)).map (Token.moved (placesOf tokens)) = tokens := by
  apply List.ext_getElem
  · simp only [numbered, List.length_map, List.length_mapIdx]
  · intro index bound bound'
    simp only [numbered, Token.moved, placesOf, Token.sign, List.getElem_map, List.getElem_mapIdx,
      Int.toNat_natCast, List.getElem?_eq_getElem bound', Option.map_some, Option.getD_some]

theorem allFit_numbered {tokens : List Token} (fits : AllFit tokens) :
    AllFit (numbered (tokens.map Token.sign)) := by
  intro token among
  have moved := List.mem_map_of_mem (f := Token.moved (placesOf tokens)) among
  rw [numbered_moved] at moved
  exact Token.fits_moved.mp (fits _ moved)

theorem take_numbered_moved {tokens tokens' : List Token} {count : Nat}
    (same : (tokens.map Token.sign).take count = (tokens'.map Token.sign).take count) :
    ((numbered (tokens.map Token.sign)).take count).map (Token.moved (placesOf tokens')) =
      tokens'.take count := by
  have start (signs : List Sign) : (numbered signs).take count = numbered (signs.take count) := by
    apply List.ext_getElem
    · simp only [numbered, List.length_take, List.length_mapIdx]
    · intro index bound bound'
      simp only [numbered, List.getElem_take, List.getElem_mapIdx]
  rw [start, same, ← start, List.map_take, numbered_moved]

section Signs

variable {tokens : List Token}

/-- The signs of tokens decide whether they are a program; then the tree is that of the numbered
tokens at other places. -/
theorem parseTokens_of_numbered {base : Items}
    (parsed : parseTokens (numbered (tokens.map Token.sign)) = .ok base []) :
    parseTokens tokens = .ok (base.moved (placesOf tokens)) [] := by
  have moved := parseTokens_moved (placesOf tokens) parsed
  rw [numbered_moved] at moved
  exact moved

theorem parseTokens_of_numbered_error (fits : AllFit tokens) {cause : Complaint}
    {front rest : List Token} (split : numbered (tokens.map Token.sign) = front ++ rest)
    (stopped : parseTokens (numbered (tokens.map Token.sign)) = .error (.complaint cause) rest) :
    parseTokens tokens = .error (.complaint cause) (tokens.drop front.length) := by
  have whole := numbered_moved tokens
  rw [split, List.map_append] at whole
  rw [split] at stopped
  have again := parseTokens_stops_again (placesOf tokens) stopped (.refl _)
    (by rw [whole]; exact fits)
  have behind : rest.map (Token.moved (placesOf tokens)) = tokens.drop front.length := by
    have cut := congrArg (List.drop front.length) whole
    rw [List.drop_left' (List.length_map _)] at cut
    exact cut
  rw [whole, behind] at again
  exact again

theorem parseTokens_numbered_cases (fits : AllFit tokens) :
    (∃ base : Items, base.Derives .standard (numbered (tokens.map Token.sign)) ∧
      parseTokens tokens = .ok (base.moved (placesOf tokens)) []) ∨
    ∃ cause front rest, cause.IsSyntactic ∧ numbered (tokens.map Token.sign) = front ++ rest ∧
      parseTokens (numbered (tokens.map Token.sign)) = .error (.complaint cause) rest ∧
      parseTokens tokens = .error (.complaint cause) (tokens.drop front.length) := by
  rcases parseTokens_cases (allFit_numbered fits) with
    ⟨base, parsed, derives⟩ | ⟨cause, front, rest, stopped, syntactic, split, -⟩
  · exact .inl ⟨base, derives, parseTokens_of_numbered parsed⟩
  · exact .inr ⟨cause, front, rest, syntactic, split, stopped,
      parseTokens_of_numbered_error fits split stopped⟩

end Signs

/-! ### Reading -/

section Reading

variable {text : Text} {rest : List Token}

theorem readProgram_of_parse (file : Option Text) {program : Items}
    (parsed : parseProgram .standard text = .ok program rest) :
    readProgram .standard file text =
      .ok { forms := program.nodes .standard, diagnostics := [] } := by
  rw [readProgram, Reading.onText_programItems, parsed]
  rfl

theorem readProgram_of_complaint (file : Option Text) {cause : Complaint}
    (stopped : parseProgram .standard text = .error (.complaint cause) rest) :
    readProgram .standard file text =
      .ok { forms := [], diagnostics := [(upcomingProblem text rest cause).diagnostic file] } := by
  rw [readProgram, Reading.onText_programItems, stopped]
  rfl

/-- What a fault of the reader comes to: a problem is reported, and any other fault ends the run. -/
def reported (file : Option Text) : Fault → Except Fault Program
  | .problem problem => .ok { forms := [], diagnostics := [problem.diagnostic file] }
  | fault => .error fault

theorem readProgram_of_fault (file : Option Text) {fault : Fault}
    (stopped : parseProgram .standard text = .error (.fault fault) rest) :
    readProgram .standard file text = reported file fault := by
  rw [readProgram, Reading.onText_programItems, stopped]
  cases fault <;> rfl

theorem exists_parse_of_readProgram {file : Option Text} {forms : List Node}
    (accepted : readProgram .standard file text = .ok { forms, diagnostics := [] }) :
    ∃ program rest, parseProgram .standard text = .ok program rest ∧
      program.nodes .standard = forms := by
  rw [readProgram, Reading.onText_programItems] at accepted
  cases parsed : parseProgram .standard text with
  | ok program rest =>
      rw [parsed] at accepted
      cases accepted
      exact ⟨program, rest, rfl, rfl⟩
  | error stop rest =>
      rw [parsed] at accepted
      simp only [answer] at accepted
      cases fault : stop.toFault text rest <;> rw [fault] at accepted <;> cases accepted

theorem exists_derives_of_readProgram {file : Option Text} {forms : List Node}
    (accepted : readProgram .standard file text = .ok { forms, diagnostics := [] }) :
    ∃ tokens program, (tokenize text).1 = (tokens, none) ∧
      Items.Derives .standard program tokens ∧ program.nodes .standard = forms := by
  obtain ⟨program, rest, parsed, nodes⟩ := exists_parse_of_readProgram accepted
  have parsedTokens := parsed
  rw [parseProgram] at parsedTokens
  have closed := (Predictive.items_sound
    (Predictive.expressionWithin_sound Dialect.standard_joinsSymbols _) parsedTokens).2.2
  have lexed : (tokenize text).1 = ((tokenize text).1.1, none) := by
    rw [← closed.clear closed.eq_nil]
  exact ⟨_, program, lexed, derives_of_parseProgram lexed parsed, nodes⟩

end Reading

end Grammar

end MessageForms
