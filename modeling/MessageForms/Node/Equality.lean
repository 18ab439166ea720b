import MessageForms.Node.Basic

set_option autoImplicit false

/-! Two ways in which trees can be equal. Both ignore positions. Alike trees may differ in the
kinds of their atoms, as long as the atoms hold the same content; for the same tree the kinds have
to agree as well. -/

namespace MessageForms

/-- Numbers are compared as numbers, texts as texts, and a number never equals a text. -/
def Content.equal : Content → Content → Bool
  | number left, number right => left.numericallyEqual right
  | text left, text right => left == right
  | _, _ => false

namespace Literal

def alike (left right : Literal) : Bool :=
  left.content.equal right.content

def same (left right : Literal) : Bool :=
  left.kind == right.kind && left.content.equal right.content

end Literal

namespace Parameters

def equalBy (equal : Literal → Literal → Bool) (left right : Parameters) : Bool :=
  left.names.length == right.names.length &&
    (left.names.zip right.names).all fun pair => equal pair.1.literal pair.2.literal

def optionEqualBy (equal : Literal → Literal → Bool) :
    Option Parameters → Option Parameters → Bool
  | none, none => true
  | some left, some right => left.equalBy equal right
  | _, _ => false

end Parameters

namespace Node

mutual

/-- Trees of one shape whose literals are equal in corresponding places. -/
def equalBy (equal : Literal → Literal → Bool) : Node → Node → Bool
  | .atom left, .atom right => equal left.literal right.literal
  | .macroForm left _, .macroForm right _ => allEqualBy equal left right
  | .parenthesized left _, .parenthesized right _ => allEqualBy equal left right
  | .braced left _, .braced right _ => allEqualBy equal left right
  | .implicitSend leftSelector left _, .implicitSend rightSelector right _ =>
      equal leftSelector.literal rightSelector.literal && allEqualBy equal left right
  | .partialSend leftSelector left _, .partialSend rightSelector right _ =>
      equal leftSelector.literal rightSelector.literal && allEqualBy equal left right
  | .targetedSend leftTarget leftSelector left _, .targetedSend rightTarget rightSelector right _ =>
      equalBy equal leftTarget rightTarget &&
        equal leftSelector.literal rightSelector.literal && allEqualBy equal left right
  | .classDefinition leftOrigin leftName leftParent leftParameters leftAccess leftBody _,
    .classDefinition rightOrigin rightName rightParent rightParameters rightAccess rightBody _ =>
      allEqualBy equal leftOrigin rightOrigin && equal leftName.literal rightName.literal &&
        optionEqualBy equal leftParent rightParent &&
        Parameters.optionEqualBy equal leftParameters rightParameters &&
        allEqualBy equal leftAccess rightAccess && allEqualBy equal leftBody rightBody
  | .methodDefinition leftOrigin leftName leftParameters leftAccess leftBody _,
    .methodDefinition rightOrigin rightName rightParameters rightAccess rightBody _ =>
      allEqualBy equal leftOrigin rightOrigin && equal leftName.literal rightName.literal &&
        Parameters.optionEqualBy equal leftParameters rightParameters &&
        allEqualBy equal leftAccess rightAccess && allEqualBy equal leftBody rightBody
  | .lexicalVariable leftOrigin leftName leftWrite leftAccess leftBound _,
    .lexicalVariable rightOrigin rightName rightWrite rightAccess rightBound _ =>
      allEqualBy equal leftOrigin rightOrigin && equal leftName.literal rightName.literal &&
        leftWrite == rightWrite && optionEqualBy equal leftAccess rightAccess &&
        equalBy equal leftBound rightBound
  | _, _ => false

def allEqualBy (equal : Literal → Literal → Bool) : List Node → List Node → Bool
  | [], [] => true
  | left :: lefts, right :: rights => equalBy equal left right && allEqualBy equal lefts rights
  | _, _ => false

def optionEqualBy (equal : Literal → Literal → Bool) : Option Node → Option Node → Bool
  | none, none => true
  | some left, some right => equalBy equal left right
  | _, _ => false

end

/-- Equal up to positions and the kinds of atoms. Only trees without definitions are compared like
this, such as reading gives: of a definition it could not be asked. That it goes on into definitions
here says nothing about them; they are compared with kinds. -/
def alike (left right : Node) : Bool :=
  equalBy Literal.alike left right

def same (left right : Node) : Bool :=
  equalBy Literal.same left right

/-! Nodes are compared by reference. Two references to one and the same node are equal without a look
inside, even if the node holds something that is no number. Which nodes two trees have in common does
not show in the trees: a test tells it for each way down from the roots, that is, for the numbers of
the parts that lead to a node. -/

/-- The nodes that a comparison goes on with, in this order. The selector of a message is one of
them; definitions are compared as a whole. -/
def parts : Node → List Node
  | .macroForm inner _ | .parenthesized inner _ | .braced inner _ => inner
  | .implicitSend selector arguments _ | .partialSend selector arguments _ =>
      .atom selector :: arguments
  | .targetedSend target selector arguments _ => target :: .atom selector :: arguments
  | .atom _ | .classDefinition _ _ _ _ _ _ _ | .methodDefinition _ _ _ _ _ _
  | .lexicalVariable _ _ _ _ _ _ => []

mutual

/-- The comparison of references to two nodes that are not one and the same. -/
def equalInside (equal : Literal → Literal → Bool) (shared : List Nat → Bool) :
    Node → Node → Bool
  | .atom left, .atom right => equal left.literal right.literal
  | .macroForm left _, .macroForm right _ => allEqualInside equal shared 0 left right
  | .parenthesized left _, .parenthesized right _ => allEqualInside equal shared 0 left right
  | .braced left _, .braced right _ => allEqualInside equal shared 0 left right
  | .implicitSend leftSelector left _, .implicitSend rightSelector right _ =>
      (shared [0] || equal leftSelector.literal rightSelector.literal) &&
        allEqualInside equal shared 1 left right
  | .partialSend leftSelector left _, .partialSend rightSelector right _ =>
      (shared [0] || equal leftSelector.literal rightSelector.literal) &&
        allEqualInside equal shared 1 left right
  | .targetedSend leftTarget leftSelector left _, .targetedSend rightTarget rightSelector right _ =>
      (shared [0] || equalInside equal (fun way => shared (0 :: way)) leftTarget rightTarget) &&
        (shared [1] || equal leftSelector.literal rightSelector.literal) &&
        allEqualInside equal shared 2 left right
  | left, right => equalBy equal left right

def allEqualInside (equal : Literal → Literal → Bool) (shared : List Nat → Bool) (index : Nat) :
    List Node → List Node → Bool
  | [], [] => true
  | left :: lefts, right :: rights =>
      (shared [index] || equalInside equal (fun way => shared (index :: way)) left right) &&
        allEqualInside equal shared (index + 1) lefts rights
  | _, _ => false

end

/-- The comparison of references to two nodes, which may be one and the same. -/
def equalSharing (equal : Literal → Literal → Bool) (shared : List Nat → Bool)
    (left right : Node) : Bool :=
  shared [] || equalInside equal shared left right

/-- Whether two references are to alike nodes, if they have no node in common, or are to one and the
same node. -/
def alikeReferences (identical : Bool) (left right : Node) : Bool :=
  equalSharing Literal.alike (fun way => identical && way.isEmpty) left right

end Node

end MessageForms
