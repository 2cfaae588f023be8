import ClassDiagram.Edge.Endpoint

/-!
# Generalizations

A generalization is attached to the subclass at its handle 1 and to the superclass at its handle 0.
All ends are found before any superclass is set, and no entity gets a second superclass.
-/

namespace ClassDiagram

/-- The entities with the superclass set at the source of one generalization. -/
def setSuperclass (es : List Entity) (ends : Endpoints) : Except ModelError (List Entity) :=
  match es[ends.source]?, es[ends.target]? with
  | some child, some parent =>
    if child.superclass.isSome then .error (.multipleGeneralizations child.reference)
    else .ok (es.modify ends.source fun e =>
      { e with superclass := some (.user parent.reference) })
  | _, _ => .ok es

namespace Model

/-- The model with the superclasses that the generalizations between the given ends say. -/
def setSuperclasses (m : Model) (ends : List Endpoints) : Except ModelError Model :=
  (ends.foldlM setSuperclass m.entities).map m.withEntities

/-- The model with the superclasses of the generalizations of a drawing. -/
def resolveGeneralizations (drawing : Node) (m : Model) : Traced Model := do
  Traced.enter .generalizations
  let ends ← Traced.ofExcept
    ((drawing.query "object" "UML - Generalization").mapM m.reversedEndpoints)
  Traced.ofExcept (m.setSuperclasses ends)

end Model

end ClassDiagram
