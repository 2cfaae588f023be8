import ClassDiagram.Model.Basic
import ClassDiagram.Outcome.Traced
import ClassDiagram.Text.Blank

/-!
# Validation

The final check of a model.  It does not stop at the first problem but lists all of them: those of
the entities in order, then the names that several packages share, then the packages without
entities.
-/

namespace ClassDiagram

open Text

/-- What is wrong with an entity. -/
def Entity.diagnostics (e : Entity) : List Diagnostic :=
  (if blank e.name then [.blankName e.id] else []) ++
    if e.isMutable && e.isImmutable then [.conflictingMutability e.reference] else []

/-- The names that stand at least twice in a list, in the order of their second places.  `before`
holds the names before the list. -/
def repeatedNames (before : List String) : List String → List String
  | [] => []
  | name :: rest =>
    if before.count name = 1 then name :: repeatedNames (before ++ [name]) rest
    else repeatedNames (before ++ [name]) rest

namespace Model

/-- Everything that is wrong with a model. -/
def diagnostics (m : Model) : List Diagnostic :=
  m.entities.flatMap Entity.diagnostics ++
    (repeatedNames [] (m.packages.map Package.name)).map .duplicatePackage ++
    ((m.packages.map Package.name).filter fun name => (m.entitiesIn name).isEmpty).map .emptyPackage

/-- The model, if nothing is wrong with it. -/
def validated (m : Model) : Except ModelError Model :=
  if m.diagnostics.isEmpty then .ok m else .error (.invalid m.diagnostics)

/-- The model, if nothing is wrong with it, as a stage. -/
def check (m : Model) : Traced Model := do
  Traced.enter .validation
  Traced.ofExcept m.validated

end Model

end ClassDiagram
