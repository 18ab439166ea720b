import MessageForms.Text.Basic

set_option autoImplicit false

/-! The names that turn a form into a definition. -/

namespace MessageForms

inductive WriteKeyword where
  | constant
  | assignable
deriving DecidableEq, Inhabited

namespace Keyword

def classWord : Text := ['c', 'l', 'a', 's', 's']

def extendsWord : Text := ['e', 'x', 't', 'e', 'n', 'd', 's']

def constantWord : Text := ['c', 'o', 'n', 's', 't']

def assignableWord : Text := ['l', 'e', 't']

/-- Binds the expression behind it; it is an operator symbol, but never an infix one. -/
def assignment : Text := ['=']

/-- The names that say who may use a method. -/
def accessWords : List Text :=
  ["public".toList, "private".toList, "protected".toList]

/-- Who may use a variable that does not say so. -/
def defaultAccess : Text := "private".toList

end Keyword

namespace WriteKeyword

def name : WriteKeyword → Text
  | constant => Keyword.constantWord
  | assignable => Keyword.assignableWord

def ofName? (name : Text) : Option WriteKeyword :=
  if name = Keyword.constantWord then some constant
  else if name = Keyword.assignableWord then some assignable
  else none

theorem ofName?_eq_some_iff {text : Text} {keyword : WriteKeyword} :
    ofName? text = some keyword ↔ text = keyword.name := by
  by_cases isConstant : text = Keyword.constantWord
  · subst isConstant
    cases keyword <;> simp [ofName?, name, Keyword.constantWord, Keyword.assignableWord]
  · by_cases isAssignable : text = Keyword.assignableWord
    · subst isAssignable
      cases keyword <;> simp [ofName?, name, Keyword.constantWord, Keyword.assignableWord]
    · cases keyword <;> simp [ofName?, name, isConstant, isAssignable]

end WriteKeyword

end MessageForms
