import ClassDiagram.Edge.Endpoint

/-!
# Realizations

A realization is attached to the implementing entity at its handle 1 and to the trait at its
handle 0.  Its stereotype is empty or `mixin`; an edge with any other stereotype is dropped with a
warning before its ends are looked at.
-/

namespace ClassDiagram

/-- The entities with the mixin of one realization added. -/
def addMixin (es : List Entity) (ends : Endpoints) : List Entity :=
  match es[ends.target]? with
  | some realized =>
    es.modify ends.source fun e => { e with mixins := e.mixins ++ [.user realized.reference] }
  | none => es

namespace Model

/-- The ends of a realization, `none` if it is dropped. -/
def realizationEnds (m : Model) (edge : Node) : Traced (Option Endpoints) := do
  let stereotype ← edge.edgeStereotype
  if stereotype = "" ∨ stereotype = "mixin" then
    return some (← m.reversedEndpoints edge)
  else
    Traced.warn [.unknownRealizationStereotype edge.describe stereotype]
    return none

/-- The model with the mixins that the realizations between the given ends say. -/
def addMixins (m : Model) (ends : List Endpoints) : Model :=
  m.withEntities (ends.foldl addMixin m.entities)

/-- The model with the mixins of the realizations of a drawing. -/
def resolveRealizations (drawing : Node) (m : Model) : Traced Model := do
  Traced.enter .realizations
  let ends ← (drawing.query "object" "UML - Realizes").mapM m.realizationEnds
  return m.addMixins (ends.filterMap id)

end Model

end ClassDiagram
