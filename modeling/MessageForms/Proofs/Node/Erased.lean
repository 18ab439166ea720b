import Mathlib.Data.List.Forall2
import MessageForms.Node.Equality

set_option autoImplicit false

/-! Nodes without their places, and with only a part of each literal kept. Both equalities compare
what is left: the erased trees, and the literals one by one. -/

namespace MessageForms

/-! ### Literals and erased trees -/

section Erasure

variable (kept : Literal → Literal)

def Atom.erased (atom : Atom) : Atom :=
  { literal := kept atom.literal, position := default }

def Parameters.erased (parameters : Parameters) : Parameters :=
  { names := parameters.names.map (·.erased kept), position := default }

def Parameters.literals (parameters : Parameters) : List Literal :=
  parameters.names.map Atom.literal

namespace Node

mutual

/-- The node without its places, and with what is kept of its literals. -/
def erased : Node → Node
  | .atom value => .atom (value.erased kept)
  | .macroForm inner _ => .macroForm (erasedAll inner) default
  | .parenthesized inner _ => .parenthesized (erasedAll inner) default
  | .braced inner _ => .braced (erasedAll inner) default
  | .implicitSend selector arguments _ =>
      .implicitSend (selector.erased kept) (erasedAll arguments) default
  | .partialSend selector arguments _ =>
      .partialSend (selector.erased kept) (erasedAll arguments) default
  | .targetedSend target selector arguments _ =>
      .targetedSend target.erased (selector.erased kept) (erasedAll arguments) default
  | .classDefinition origin name parent parameters access body _ =>
      .classDefinition (erasedAll origin) (name.erased kept) (erasedOption parent)
        (parameters.map (·.erased kept)) (erasedAll access) (erasedAll body) default
  | .methodDefinition origin name parameters access body _ =>
      .methodDefinition (erasedAll origin) (name.erased kept) (parameters.map (·.erased kept))
        (erasedAll access) (erasedAll body) default
  | .lexicalVariable origin name write access bound _ =>
      .lexicalVariable (erasedAll origin) (name.erased kept) write (erasedOption access)
        bound.erased default

def erasedAll : List Node → List Node
  | [] => []
  | node :: others => node.erased :: erasedAll others

def erasedOption : Option Node → Option Node
  | none => none
  | some node => some node.erased

end

mutual

def literals : Node → List Literal
  | .atom value => [value.literal]
  | .macroForm inner _ | .parenthesized inner _ | .braced inner _ => literalsOf inner
  | .implicitSend selector arguments _ | .partialSend selector arguments _ =>
      selector.literal :: literalsOf arguments
  | .targetedSend target selector arguments _ =>
      target.literals ++ selector.literal :: literalsOf arguments
  | .classDefinition origin name parent parameters access body _ =>
      literalsOf origin ++ name.literal :: (literalsIn parent ++
        (parameters.elim [] (·.literals) ++ (literalsOf access ++ literalsOf body)))
  | .methodDefinition origin name parameters access body _ =>
      literalsOf origin ++ name.literal ::
        (parameters.elim [] (·.literals) ++ (literalsOf access ++ literalsOf body))
  | .lexicalVariable origin name _ access bound _ =>
      literalsOf origin ++ name.literal :: (literalsIn access ++ bound.literals)

def literalsOf : List Node → List Literal
  | [] => []
  | node :: others => node.literals ++ literalsOf others

def literalsIn : Option Node → List Literal
  | none => []
  | some node => node.literals

end

end Node

theorem Parameters.literals_erased (parameters : Option Parameters) :
    (parameters.map (·.erased kept)).elim [] (·.literals) =
      (parameters.elim [] (·.literals)).map kept := by
  cases parameters with
  | none => rfl
  | some parameters =>
      simp only [Option.map_some, Option.elim_some, erased, literals, List.map_map]
      rfl

namespace Node

mutual

theorem literals_erased (node : Node) : (node.erased kept).literals = node.literals.map kept := by
  cases node with
  | atom value => rfl
  | macroForm inner _ | parenthesized inner _ | braced inner _ =>
      exact literalsOf_erasedAll inner
  | implicitSend selector arguments _ | partialSend selector arguments _ =>
      exact congrArg (kept selector.literal :: ·) (literalsOf_erasedAll arguments)
  | targetedSend target selector arguments _ =>
      simp only [erased, literals, literals_erased target, literalsOf_erasedAll arguments,
        Atom.erased, List.map_append, List.map_cons]
  | classDefinition origin name parent parameters access body _ =>
      simp only [erased, literals, literalsOf_erasedAll, literalsIn_erasedOption parent,
        Parameters.literals_erased, Atom.erased, List.map_append, List.map_cons]
  | methodDefinition origin name parameters access body _ =>
      simp only [erased, literals, literalsOf_erasedAll, Parameters.literals_erased, Atom.erased,
        List.map_append, List.map_cons]
  | lexicalVariable origin name write access bound _ =>
      simp only [erased, literals, literals_erased bound, literalsOf_erasedAll,
        literalsIn_erasedOption access, Atom.erased, List.map_append, List.map_cons]

theorem literalsOf_erasedAll (nodes : List Node) :
    literalsOf (erasedAll kept nodes) = (literalsOf nodes).map kept := by
  match nodes with
  | [] => rfl
  | node :: others =>
      rw [erasedAll, literalsOf, literalsOf, literals_erased node, literalsOf_erasedAll others,
        List.map_append]

theorem literalsIn_erasedOption (node : Option Node) :
    literalsIn (erasedOption kept node) = (literalsIn node).map kept := by
  match node with
  | none => rfl
  | some node => exact literals_erased node

end

end Node

end Erasure

/-! ### What both equalities compare -/

theorem forall₂_append_iff {α β : Type} {related : α → β → Prop} {left left' : List α}
    {right right' : List β} (lengths : left.length = right.length) :
    List.Forall₂ related (left ++ left') (right ++ right') ↔
      List.Forall₂ related left right ∧ List.Forall₂ related left' right' := by
  constructor
  · intro all
    have first := List.forall₂_take_append _ _ _ all
    have second := List.forall₂_drop_append _ _ _ all
    rw [← lengths, List.take_left] at first
    rw [← lengths, List.drop_left] at second
    exact ⟨first, second⟩
  · rintro ⟨first, second⟩
    exact List.rel_append first second

section Equality

variable {equal : Literal → Literal → Bool} {kept : Literal → Literal}

def LiteralsEqual (equal : Literal → Literal → Bool) (left right : List Literal) : Prop :=
  List.Forall₂ (fun one other => equal one other = true) left right

/-- Of equal literals the same is kept. -/
def Keeps (equal : Literal → Literal → Bool) (kept : Literal → Literal) : Prop :=
  ∀ left right, equal left right = true → kept left = kept right

theorem keeps_nothing (equal : Literal → Literal → Bool) : Keeps equal fun _ => default :=
  fun _ _ _ => rfl

theorem length_eq_of_map_eq {left right : List Literal} (same : left.map kept = right.map kept) :
    left.length = right.length := by
  have lengths := congrArg List.length same
  rwa [List.length_map, List.length_map] at lengths

section Parts

variable {alone others : Prop} {left left' right right' : List Literal}

theorem parts_append_iff (lengths : alone → left.length = right.length) :
    ((alone ∧ LiteralsEqual equal left right) ∧ others ∧ LiteralsEqual equal left' right') ↔
      (alone ∧ others) ∧ LiteralsEqual equal (left ++ left') (right ++ right') := by
  constructor
  · rintro ⟨⟨first, literals⟩, second, literals'⟩
    exact ⟨⟨first, second⟩, List.rel_append literals literals'⟩
  · rintro ⟨⟨first, second⟩, all⟩
    obtain ⟨literals, literals'⟩ := (forall₂_append_iff (lengths first)).mp all
    exact ⟨⟨first, literals⟩, second, literals'⟩

theorem parts_cons_iff (keeps : Keeps equal kept) (atom atom' : Atom) :
    (equal atom.literal atom'.literal = true ∧ others ∧ LiteralsEqual equal left right) ↔
      (atom.erased kept = atom'.erased kept ∧ others) ∧
        LiteralsEqual equal (atom.literal :: left) (atom'.literal :: right) := by
  constructor
  · rintro ⟨first, second, literals⟩
    refine ⟨⟨?_, second⟩, .cons first literals⟩
    rw [Atom.erased, Atom.erased, keeps _ _ first]
  · rintro ⟨⟨-, second⟩, all⟩
    rcases all with _ | ⟨first, literals⟩
    exact ⟨first, second, literals⟩

end Parts

theorem Parameters.equalBy_iff_literals (left right : Parameters) :
    left.equalBy equal right = true ↔ LiteralsEqual equal left.literals right.literals := by
  rw [LiteralsEqual, literals, literals, List.forall₂_map_left_iff, List.forall₂_map_right_iff,
    List.forall₂_iff_zip]
  simp only [equalBy, Bool.and_eq_true, beq_iff_eq, List.all_eq_true, Prod.forall]

theorem Parameters.equalBy_iff (keeps : Keeps equal kept) (left right : Parameters) :
    left.equalBy equal right = true ↔
      left.erased kept = right.erased kept ∧ LiteralsEqual equal left.literals right.literals := by
  rw [equalBy_iff_literals, iff_and_self]
  intro equals
  rw [LiteralsEqual, literals, literals, List.forall₂_map_left_iff,
    List.forall₂_map_right_iff] at equals
  have names : left.names.map (·.erased kept) = right.names.map (·.erased kept) := by
    rw [← List.forall₂_eq_eq_eq, List.forall₂_map_left_iff, List.forall₂_map_right_iff]
    exact equals.imp fun one other same => by rw [Atom.erased, Atom.erased, keeps _ _ same]
  rw [erased, erased, names]

theorem Parameters.optionEqualBy_iff (keeps : Keeps equal kept)
    (left right : Option Parameters) :
    optionEqualBy equal left right = true ↔
      left.map (·.erased kept) = right.map (·.erased kept) ∧
        LiteralsEqual equal (left.elim [] (·.literals)) (right.elim [] (·.literals)) := by
  cases left with
  | none =>
      cases right with
      | none => exact ⟨fun _ => ⟨rfl, .nil⟩, fun _ => rfl⟩
      | some right => exact ⟨nofun, fun both => nomatch both.1⟩
  | some left =>
      cases right with
      | none => exact ⟨nofun, fun both => nomatch both.1⟩
      | some right =>
          rw [Option.map_some, Option.map_some, Option.some_inj]
          exact equalBy_iff keeps left right

theorem Parameters.length_literals_of_erased {left right : Option Parameters}
    (same : left.map (·.erased kept) = right.map (·.erased kept)) :
    (left.elim [] (·.literals)).length = (right.elim [] (·.literals)).length := by
  have erased := congrArg (fun parameters => parameters.elim [] (·.literals)) same
  rw [Parameters.literals_erased, Parameters.literals_erased] at erased
  exact length_eq_of_map_eq erased

namespace Node

theorem length_literals_of_erased {left right : Node}
    (same : left.erased kept = right.erased kept) :
    left.literals.length = right.literals.length := by
  have erased := congrArg literals same
  rw [literals_erased, literals_erased] at erased
  exact length_eq_of_map_eq erased

theorem length_literalsOf_of_erasedAll {left right : List Node}
    (same : erasedAll kept left = erasedAll kept right) :
    (literalsOf left).length = (literalsOf right).length := by
  have erased := congrArg literalsOf same
  rw [literalsOf_erasedAll, literalsOf_erasedAll] at erased
  exact length_eq_of_map_eq erased

theorem length_literalsIn_of_erasedOption {left right : Option Node}
    (same : erasedOption kept left = erasedOption kept right) :
    (literalsIn left).length = (literalsIn right).length := by
  have erased := congrArg literalsIn same
  rw [literalsIn_erasedOption, literalsIn_erasedOption] at erased
  exact length_eq_of_map_eq erased

mutual

/-- Nodes are equal if what is kept of them is the same and their literals are equal. -/
theorem equalBy_iff (keeps : Keeps equal kept) (left right : Node) :
    equalBy equal left right = true ↔
      left.erased kept = right.erased kept ∧
        LiteralsEqual equal left.literals right.literals := by
  cases left with
  | atom left =>
      cases right with
      | atom right =>
          have alone : (equal left.literal right.literal = true ∧ True ∧ LiteralsEqual equal [] []) ↔
              (left.erased kept = right.erased kept ∧ True) ∧
                LiteralsEqual equal [left.literal] [right.literal] :=
            parts_cons_iff keeps left right
          simpa only [equalBy, erased, literals, atom.injEq, LiteralsEqual, List.Forall₂.nil,
            and_true] using alone
      | _ => simp only [equalBy, erased, reduceCtorEq, Bool.false_eq_true, false_and]
  | macroForm left _ =>
      cases right with
      | macroForm right _ =>
          simp only [equalBy, erased, literals, allEqualBy_iff keeps left right, macroForm.injEq,
            and_true]
      | _ => simp only [equalBy, erased, reduceCtorEq, Bool.false_eq_true, false_and]
  | parenthesized left _ =>
      cases right with
      | parenthesized right _ =>
          simp only [equalBy, erased, literals, allEqualBy_iff keeps left right,
            parenthesized.injEq, and_true]
      | _ => simp only [equalBy, erased, reduceCtorEq, Bool.false_eq_true, false_and]
  | braced left _ =>
      cases right with
      | braced right _ =>
          simp only [equalBy, erased, literals, allEqualBy_iff keeps left right, braced.injEq,
            and_true]
      | _ => simp only [equalBy, erased, reduceCtorEq, Bool.false_eq_true, false_and]
  | implicitSend leftSelector left _ =>
      cases right with
      | implicitSend rightSelector right _ =>
          simp only [equalBy, erased, literals, Bool.and_eq_true, implicitSend.injEq, and_true,
            allEqualBy_iff keeps left right, parts_cons_iff keeps]
      | _ => simp only [equalBy, erased, reduceCtorEq, Bool.false_eq_true, false_and]
  | partialSend leftSelector left _ =>
      cases right with
      | partialSend rightSelector right _ =>
          simp only [equalBy, erased, literals, Bool.and_eq_true, partialSend.injEq, and_true,
            allEqualBy_iff keeps left right, parts_cons_iff keeps]
      | _ => simp only [equalBy, erased, reduceCtorEq, Bool.false_eq_true, false_and]
  | targetedSend leftTarget leftSelector left _ =>
      cases right with
      | targetedSend rightTarget rightSelector right _ =>
          simp only [equalBy, erased, literals, Bool.and_eq_true, targetedSend.injEq, and_true]
          rw [and_assoc, equalBy_iff keeps leftTarget rightTarget, allEqualBy_iff keeps left right,
            parts_cons_iff keeps, parts_append_iff length_literals_of_erased]
      | _ => simp only [equalBy, erased, reduceCtorEq, Bool.false_eq_true, false_and]
  | classDefinition leftOrigin leftName leftParent leftParameters leftAccess leftBody _ =>
      cases right with
      | classDefinition rightOrigin rightName rightParent rightParameters rightAccess rightBody _ =>
          simp only [equalBy, erased, literals, Bool.and_eq_true, classDefinition.injEq, and_true,
            and_assoc]
          rw [allEqualBy_iff keeps leftOrigin rightOrigin,
            optionEqualBy_iff keeps leftParent rightParent,
            Parameters.optionEqualBy_iff keeps leftParameters rightParameters,
            allEqualBy_iff keeps leftAccess rightAccess, allEqualBy_iff keeps leftBody rightBody,
            parts_append_iff length_literalsOf_of_erasedAll,
            parts_append_iff Parameters.length_literals_of_erased,
            parts_append_iff length_literalsIn_of_erasedOption, parts_cons_iff keeps,
            parts_append_iff length_literalsOf_of_erasedAll]
          simp only [and_assoc]
      | _ => simp only [equalBy, erased, reduceCtorEq, Bool.false_eq_true, false_and]
  | methodDefinition leftOrigin leftName leftParameters leftAccess leftBody _ =>
      cases right with
      | methodDefinition rightOrigin rightName rightParameters rightAccess rightBody _ =>
          simp only [equalBy, erased, literals, Bool.and_eq_true, methodDefinition.injEq, and_true,
            and_assoc]
          rw [allEqualBy_iff keeps leftOrigin rightOrigin,
            Parameters.optionEqualBy_iff keeps leftParameters rightParameters,
            allEqualBy_iff keeps leftAccess rightAccess, allEqualBy_iff keeps leftBody rightBody,
            parts_append_iff length_literalsOf_of_erasedAll,
            parts_append_iff Parameters.length_literals_of_erased, parts_cons_iff keeps,
            parts_append_iff length_literalsOf_of_erasedAll]
          simp only [and_assoc]
      | _ => simp only [equalBy, erased, reduceCtorEq, Bool.false_eq_true, false_and]
  | lexicalVariable leftOrigin leftName leftWrite leftAccess leftBound _ =>
      cases right with
      | lexicalVariable rightOrigin rightName rightWrite rightAccess rightBound _ =>
          simp only [equalBy, erased, literals, Bool.and_eq_true, lexicalVariable.injEq, and_true,
            and_assoc, beq_iff_eq]
          rw [allEqualBy_iff keeps leftOrigin rightOrigin,
            optionEqualBy_iff keeps leftAccess rightAccess, equalBy_iff keeps leftBound rightBound,
            parts_append_iff length_literalsIn_of_erasedOption,
            ← and_assoc (a := leftWrite = rightWrite), parts_cons_iff keeps,
            parts_append_iff length_literalsOf_of_erasedAll]
          simp only [and_assoc]
      | _ => simp only [equalBy, erased, reduceCtorEq, Bool.false_eq_true, false_and]

theorem allEqualBy_iff (keeps : Keeps equal kept) (left right : List Node) :
    allEqualBy equal left right = true ↔
      erasedAll kept left = erasedAll kept right ∧
        LiteralsEqual equal (literalsOf left) (literalsOf right) := by
  match left, right with
  | [], [] => exact ⟨fun _ => ⟨rfl, .nil⟩, fun _ => rfl⟩
  | [], right :: rights | left :: lefts, [] =>
      simp only [allEqualBy, erasedAll, reduceCtorEq, Bool.false_eq_true, false_and]
  | left :: lefts, right :: rights =>
      simp only [allEqualBy, erasedAll, literalsOf, Bool.and_eq_true, List.cons.injEq]
      rw [equalBy_iff keeps left right, allEqualBy_iff keeps lefts rights,
        parts_append_iff length_literals_of_erased]

theorem optionEqualBy_iff (keeps : Keeps equal kept) (left right : Option Node) :
    optionEqualBy equal left right = true ↔
      erasedOption kept left = erasedOption kept right ∧
        LiteralsEqual equal (literalsIn left) (literalsIn right) := by
  match left, right with
  | none, none => exact ⟨fun _ => ⟨rfl, .nil⟩, fun _ => rfl⟩
  | none, some right | some left, none =>
      simp only [optionEqualBy, erasedOption, reduceCtorEq, Bool.false_eq_true, false_and]
  | some left, some right =>
      simp only [optionEqualBy, erasedOption, literalsIn, Option.some_inj]
      exact equalBy_iff keeps left right

end

end Node

end Equality

end MessageForms
