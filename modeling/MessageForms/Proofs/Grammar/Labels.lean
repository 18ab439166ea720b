import MessageForms.Proofs.Grammar.Outcome
import MessageForms.Proofs.Node.Relabeled

set_option autoImplicit false

/-! The nodes of a tree whose tokens stand at other places are the nodes of the tree with these
places as labels. The numerals of tokens are always numbers, so the other label does not show. -/

namespace MessageForms

open Grammar

namespace Dialect

variable (labels : Relabeling)

theorem selector_moved (token : Token) :
    standard.selector (token.moved labels.place) = (standard.selector token).relabel labels := rfl

theorem literal_moved {token : Token} (fits : token.Fits) :
    standard.literal (token.moved labels.place) = (standard.literal token).relabel labels := by
  by_cases kind : token.kind = .number
  · simp only [Token.Fits, kind] at fits
    have known := Binary64.ofText?_of_digits fits
    simp only [literal, Token.kind_moved, kind, if_true, standard, numberAtom, Token.raw_moved,
      known]
    rfl
  · rw [literal, literal, Token.kind_moved, if_neg kind, if_neg kind]
    rfl

end Dialect

namespace Grammar

section Labels

open Dialect (selector_moved literal_moved)

mutual

theorem Modifier.node_moved (labels : Relabeling) (modifier : Modifier)
    (fits : AllFit modifier.tokens) :
    (modifier.moved labels.place).node .standard =
      (modifier.node .standard).relabel labels := by
  match modifier with
  | .literal token =>
      rw [Modifier.moved, Modifier.node, Modifier.node, literal_moved labels fits.head]
      rfl
  | .partialSend dot name arguments =>
      simp only [Modifier.moved, Modifier.node, selector_moved,
        arguments.nodes_moved labels fits.tail.tail, Node.relabel, Node.relabelAll_eq_map]
      rfl
  | .implicitSend name arguments =>
      simp only [Modifier.moved, Modifier.node, selector_moved,
        arguments.nodes_moved labels fits.tail, Node.relabel, Node.relabelAll_eq_map]
      rfl
  | .parenthesized opening inner closing | .braced opening inner closing =>
      simp only [Modifier.moved, Modifier.node, inner.nodes_moved labels fits.tail.left,
        Node.relabel, Node.relabelAll_eq_map]
      rfl
  | .dotSend name target =>
      simp only [Modifier.moved, Modifier.node, selector_moved,
        target.node_moved labels fits.tail, Node.relabel, Node.relabelAll_eq_map,
        Node.position_relabel, List.map_nil]

theorem Arguments.nodes_moved (labels : Relabeling) (found : Arguments)
    (fits : AllFit found.tokens) :
    (found.moved labels.place).nodes .standard =
      (found.nodes .standard).map (·.relabel labels) := by
  match found with
  | .absent => rfl
  | .listed opening inner closing => exact inner.nodes_moved labels fits.tail.left

theorem Items.nodes_moved (labels : Relabeling) (inner : Items) (fits : AllFit inner.tokens) :
    (inner.moved labels.place).nodes .standard =
      (inner.nodes .standard).map (·.relabel labels) := by
  match inner with
  | .empty => rfl
  | .first item others =>
      simp only [Items.moved, Items.nodes, item.node_moved labels fits.left,
        others.nodes_moved labels fits.right, List.map_cons]

theorem MoreItems.nodes_moved (labels : Relabeling) (others : MoreItems)
    (fits : AllFit others.tokens) :
    (others.moved labels.place).nodes .standard =
      (others.nodes .standard).map (·.relabel labels) := by
  match others with
  | .ended => rfl
  | .trailing delimiter => rfl
  | .more delimiter item others =>
      simp only [MoreItems.moved, MoreItems.nodes, item.node_moved labels fits.tail.left,
        others.nodes_moved labels fits.tail.right, List.map_cons]

theorem Expression.node_moved (labels : Relabeling) (tree : Expression)
    (fits : AllFit tree.tokens) :
    (tree.moved labels.place).node .standard = (tree.node .standard).relabel labels := by
  match tree with
  | .single modifier => exact modifier.node_moved labels fits
  | .operation left operator right =>
      simp only [Expression.moved, Expression.node, selector_moved,
        left.node_moved labels fits.left, right.node_moved labels fits.right.tail, Node.relabel,
        Node.relabelAll_eq_map, Node.position_relabel, List.map_cons, List.map_nil]
  | .form first others =>
      simp only [Expression.moved, Expression.node, first.node_moved labels fits.left,
        others.nodes_moved labels fits.right, Node.relabel, Node.relabelAll_eq_map,
        Node.position_relabel, List.map_cons]

theorem Modifiers.nodes_moved (labels : Relabeling) (others : Modifiers)
    (fits : AllFit others.tokens) :
    (others.moved labels.place).nodes .standard =
      (others.nodes .standard).map (·.relabel labels) := by
  match others with
  | .last modifier =>
      simp only [Modifiers.moved, Modifiers.nodes, modifier.node_moved labels fits, List.map_cons,
        List.map_nil]
  | .more modifier others =>
      simp only [Modifiers.moved, Modifiers.nodes, modifier.node_moved labels fits.left,
        others.nodes_moved labels fits.right, List.map_cons]

end

end Labels

end Grammar

end MessageForms
