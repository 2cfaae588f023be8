import ClassDiagram.Text.Blank
import ClassDiagram.Text.Cut

/-!
# Stereotype tokens

A stereotype is a word that may be decorated with guillemets, `<<trait>>` or `«trait»`.  A class
carries a list of them, separated by commas or semicolons (`splitTokens`).
-/

namespace ClassDiagram.Stereotype

open Text

/-- The characters of an opening guillemet. -/
def isOpeningMark (c : Char) : Bool := c = '<' || c = '«'

/-- The characters of a closing guillemet. -/
def isClosingMark (c : Char) : Bool := c = '>' || c = '»'

/-- The separators of a list of stereotypes. -/
def isSeparator (c : Char) : Bool := c = ',' || c = ';'

/-- A word without white space and guillemets around it, and without white space inside the
guillemets. -/
def undecorated (word : List Char) : List Char :=
  trim (dropEndWhile isClosingMark ((trim word).dropWhile isOpeningMark))

/-- A stereotype without its decoration. -/
def stripDecoration (text : String) : String :=
  String.ofList (undecorated text.toList)

/-- The words in a list of stereotypes, undecorated and without the empty ones. -/
def tokens (text : List Char) : List (List Char) :=
  ((pieces isSeparator text).map undecorated).filter fun t => !t.isEmpty

/-- The stereotypes in a list, undecorated and without the empty ones. -/
def splitTokens (text : String) : List String :=
  (tokens text.toList).map String.ofList

end ClassDiagram.Stereotype
