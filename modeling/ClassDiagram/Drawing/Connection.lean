import ClassDiagram.Drawing.Payload

/-!
# Connections

An edge of a drawing says in a `connections` element which objects its handles are attached to:

    <connections><connection handle="0" to="O1"/><connection handle="1" to="O2"/></connections>
-/

namespace ClassDiagram

/-- A handle of an edge with the object it is attached to. -/
structure Connection where
  /-- The number of the handle. -/
  handle : UInt64
  /-- The id of the object. -/
  target : String
deriving DecidableEq

namespace Node

open Text Number

/-- Reads the connection element `c` of the edge `n`. -/
def connection (n c : Node) : Except DrawingError Connection := do
  let some handleText := c.attribute? "handle"
    | throw (.missingAttribute "handle" n.describe)
  let some handle := word64? (trim handleText.toList)
    | throw (.invalid .handle "handle" n.describe handleText)
  let some target := c.attribute? "to"
    | throw (.missingAttribute "to" n.describe)
  return ⟨handle, target⟩

/-- The connections of an edge, in document order. -/
def connections (n : Node) : Except DrawingError (List Connection) :=
  match n.children.find? fun c => c.kind = "connections" with
  | some c => (c.children.filter fun d => d.kind = "connection").mapM n.connection
  | none => .ok []

/-- The object that the handle of an edge is attached to, by the first connection if there are
several. -/
def connectionTarget (n : Node) (handle : UInt64) : Except DrawingError String := do
  let cs ← n.connections
  match cs.find? fun c => c.handle = handle with
  | some c => return c.target
  | none => throw (.missingChild ("connection handle " ++ toString handle.toNat) n.describe)

end Node

end ClassDiagram
