import ClassDiagram.Edge.Endpoint

/-!
# Companion dependencies

A dependency with the stereotype `hasA` or `companionOf` makes the entity at its handle 0 an object
and gives the entity at its handle 1 a companion.  Dependencies without a stereotype mean nothing;
those with any other one are dropped with a warning before their ends are looked at.
-/

namespace ClassDiagram

/-- The entities with the companion of one dependency. -/
def setCompanion (es : List Entity) (ends : Endpoints) : List Entity :=
  (es.modify ends.source fun e => { e with kind := .object }).modify ends.target
    fun e => { e with hasCompanion := true }

namespace Model

/-- The ends of a companion dependency, `none` if the dependency is no such. -/
def dependencyEnds (m : Model) (edge : Node) : Traced (Option Endpoints) := do
  let stereotype ← edge.edgeStereotype
  if stereotype = "" then return none
  else if stereotype = "hasA" ∨ stereotype = "companionOf" then
    return some (← m.endpoints edge)
  else
    Traced.warn [.unknownDependencyStereotype edge.describe stereotype]
    return none

/-- The model with the companions that the dependencies between the given ends say. -/
def setCompanions (m : Model) (ends : List Endpoints) : Model :=
  m.withEntities (ends.foldl setCompanion m.entities)

/-- The model with the companions of the dependencies of a drawing. -/
def resolveDependencies (drawing : Node) (m : Model) : Traced Model := do
  Traced.enter .dependencies
  let ends ← (drawing.query "object" "UML - Dependency").mapM m.dependencyEnds
  return m.setCompanions (ends.filterMap id)

end Model

end ClassDiagram
