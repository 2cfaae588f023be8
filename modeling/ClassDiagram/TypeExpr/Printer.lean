import ClassDiagram.TypeExpr.Basic

/-!
# Writing type expressions

`print` gives the characters of a type expression and `text` the same as a string.  Parameters and
elements are separated by a comma and a blank.  A function with a single input that is not itself
a container needs no parentheses around it.
-/

namespace ClassDiagram.TypeExpr

mutual

/-- The characters of a type expression. -/
def print : TypeExpr → List Char
  | empty => []
  | builtin b => b.name.toList
  | user r => r.qualifiedName.toList
  | generic base params => print base ++ '[' :: printList params ++ [']']
  | function inputs output => printInputs inputs ++ " => ".toList ++ print output
  | tuple items => '(' :: printList items ++ [')']

/-- The characters of a list of type expressions, separated by commas. -/
def printList : List TypeExpr → List Char
  | [] => []
  | t :: ts => print t ++ printRest ts

/-- The characters of the type expressions after the first one of a list. -/
def printRest : List TypeExpr → List Char
  | [] => []
  | t :: ts => ',' :: ' ' :: print t ++ printRest ts

/-- The characters of the inputs of a function. -/
def printInputs : List TypeExpr → List Char
  | [] => ['(', ')']
  | t :: ts =>
    if ts.isEmpty && !t.isContainer then print t
    else '(' :: (print t ++ printRest ts) ++ [')']

end

/-- The text of a type expression. -/
def text (t : TypeExpr) : String :=
  String.ofList (print t)

/-- Anything but a single input without parts stands in parentheses. -/
theorem printInputs_eq (ts : List TypeExpr) :
    printInputs ts =
      match ts with
      | [t] => if t.isContainer then '(' :: print t ++ [')'] else print t
      | ts => '(' :: printList ts ++ [')'] := by
  match ts with
  | [] => rfl
  | [t] => cases h : t.isContainer <;> simp [printInputs, printRest, h]
  | t :: u :: ts => simp [printInputs, printList]

end ClassDiagram.TypeExpr
