import ClassDiagram.Dictionary
import ClassDiagram.Text.Blank
import ClassDiagram.Text.Cut

/-!
# Import tables

An import table tells the full names of classes that are not drawn, such as `java.time.Instant` for
`Instant`.  A table is read from a text with one full name on each line.
-/

namespace ClassDiagram

open Text

/-- Full names of classes under their short names, in the order of insertion. -/
abbrev ImportTable := Dictionary String

namespace ImportTable

/-- The part of a full name after its last dot; the whole name without a dot. -/
def shortName (full : String) : String :=
  match cutAtLast '.' full.toList with
  | some (_, short) => String.ofList short
  | none => full

/-- The part of a full name before its last dot, if there is something before a dot. -/
def packageOf? (full : String) : Option String :=
  match cutAtLast '.' full.toList with
  | some (package, _) => if package.isEmpty then none else some (String.ofList package)
  | none => none

/-- The table with a full name under its short name. -/
def add (table : ImportTable) (full : String) : ImportTable :=
  table.insert (shortName full) full

/-- The full name of a class. -/
def fullName? (table : ImportTable) (name : String) : Option String :=
  table.find? name

/-- The package of a class; `none` if the class is not in the table or its full name has no
package. -/
def package? (table : ImportTable) (name : String) : Option String :=
  (table.fullName? name).bind packageOf?

/-! ### Reading -/

/-- The full name on a line, after `import` and before a semicolon.  Blank lines and lines that
begin with `#` or `//` hold none. -/
def nameOfLine? (line : List Char) : Option String :=
  let line := trim line
  if line.isEmpty || "#".toList.isPrefixOf line || "//".toList.isPrefixOf line then none
  else
    let name := trim (("import ".toList.isPrefixOf? line).getD line)
    let name := trim ((";".toList.isSuffixOf? name).getD name)
    if name.isEmpty then none else some (String.ofList name)

/-- The full names in a text, line by line. -/
def namesOfText (text : String) : List String :=
  (pieces (· == '\n') text.toList).filterMap nameOfLine?

/-- The table of the full names in a text.  Of several names with the same short name the last one
counts. -/
def ofText (text : String) : ImportTable :=
  (namesOfText text).foldl add Dictionary.empty

end ImportTable

end ClassDiagram
