/-!
# Stages

A drawing becomes a model in stages, which are entered in a fixed order.  `Stage.all` lists them.
-/

namespace ClassDiagram

/-- A stage of the way from a drawing to a model. -/
inductive Stage where
  /-- The packages are read. -/
  | packages
  /-- The classes are read. -/
  | classes
  /-- Every entity gets its package. -/
  | packageAssignment
  /-- Classes get their companions. -/
  | companions
  /-- Superclasses are set. -/
  | generalizations
  /-- Mixins are added. -/
  | realizations
  /-- Drawn companions are recognized. -/
  | dependencies
  /-- Associations become attributes. -/
  | associations
  /-- References in types get their packages. -/
  | crossReferences
  /-- Overriding members are found. -/
  | overrides
  /-- The model is checked as a whole. -/
  | validation
deriving DecidableEq

namespace Stage

/-- The stages in the order in which they are entered. -/
def all : List Stage :=
  [packages, classes, packageAssignment, companions, generalizations, realizations, dependencies,
    associations, crossReferences, overrides, validation]

/-- The name of a stage. -/
def name : Stage → String
  | packages => "Packages"
  | classes => "Classes"
  | packageAssignment => "PackageAssignment"
  | companions => "Companions"
  | generalizations => "Generalizations"
  | realizations => "Realizations"
  | dependencies => "Dependencies"
  | associations => "Associations"
  | crossReferences => "CrossReferences"
  | overrides => "Overrides"
  | validation => "Validation"

theorem mem_all (s : Stage) : s ∈ all := by
  cases s <;> decide

end Stage

end ClassDiagram
