import ClassDiagram.TypeExpr.Basic

/-!
# Diagnostics

What the final check of a model finds wrong with it.  Each diagnostic has a code and a message.
-/

namespace ClassDiagram

/-- A structural problem of a model. -/
inductive Diagnostic where
  /-- The entity with this id has a blank name. -/
  | blankName (id : String)
  /-- The entity is declared both mutable and immutable. -/
  | conflictingMutability (entity : EntityRef)
  /-- Several packages have this name. -/
  | duplicatePackage (name : String)
  /-- No entity belongs to the package of this name. -/
  | emptyPackage (name : String)
deriving DecidableEq

namespace Diagnostic

/-- The code of a diagnostic. -/
def code : Diagnostic → String
  | blankName _ => "E0101"
  | conflictingMutability _ => "E0102"
  | duplicatePackage _ => "E0103"
  | emptyPackage _ => "E0104"

/-- What is reported to the reader of the diagram. -/
def message : Diagnostic → String
  | blankName id => "Entity '" ++ id ++ "' has an empty name"
  | conflictingMutability entity =>
    "Entity '" ++ entity.qualifiedName ++ "' is both mutable and immutable"
  | duplicatePackage name => "Duplicate package name '" ++ name ++ "'"
  | emptyPackage name => "Package '" ++ name ++ "' contains no entities"

/-- The code and the message on one line. -/
def line (d : Diagnostic) : String := d.code ++ ": " ++ d.message

/-- One line for each diagnostic. -/
def report (ds : List Diagnostic) : String :=
  "\n".intercalate (ds.map line)

end Diagnostic

end ClassDiagram
