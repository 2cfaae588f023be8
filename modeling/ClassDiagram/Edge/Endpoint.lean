import ClassDiagram.Drawing.Connection
import ClassDiagram.Model.Basic
import ClassDiagram.Outcome.Traced
import ClassDiagram.Stereotype.Token

/-!
# Ends of edges

An edge is attached to an entity at each of its handles 0 and 1.  `Model.endpoint` finds the position
of the entity at a handle.
-/

namespace ClassDiagram

/-- The positions of the two entities that an edge connects. -/
structure Endpoints where
  /-- The entity that the edge comes from. -/
  source : Nat
  /-- The entity that the edge leads to. -/
  target : Nat
deriving DecidableEq

namespace Model

/-- The position of the entity at a handle of an edge. -/
def endpoint (m : Model) (edge : Node) (handle : UInt64) : Except ModelError Nat := do
  let id ← (edge.connectionTarget handle).mapError .drawing
  match m.position? id with
  | some i => return i
  | none => throw (.unresolvedConnection edge.describe id)

/-- The ends of an edge that is drawn from its handle 0 to its handle 1. -/
def endpoints (m : Model) (edge : Node) : Except ModelError Endpoints := do
  let source ← m.endpoint edge 0
  let target ← m.endpoint edge 1
  return ⟨source, target⟩

/-- The ends of an edge that is drawn from its handle 1 to its handle 0. -/
def reversedEndpoints (m : Model) (edge : Node) : Except ModelError Endpoints := do
  let source ← m.endpoint edge 1
  let target ← m.endpoint edge 0
  return ⟨source, target⟩

/-- The type that the entity at a position is. -/
def typeAt? (m : Model) (i : Nat) : Option TypeExpr :=
  m.entities[i]?.map fun e => .user e.reference

end Model

/-- The stereotype of an edge without its decoration, empty if there is none. -/
def Node.edgeStereotype (edge : Node) : Except DrawingError String :=
  (edge.optionalString "stereotype").map fun s => Stereotype.stripDecoration (s.getD "")

end ClassDiagram
