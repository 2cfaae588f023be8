import ClassDiagram.Drawing.Connection
import ClassDiagram.Number.Shortest

/-!
# Composing drawings

The elements of a drawing, made from the values they hold.  What is composed here is what the
payload functions of an element read.
-/

namespace ClassDiagram.Node

open Number

/-- A payload element with its value in the attribute `val`. -/
def ofValue (kind : PayloadKind) (value : String) : Node :=
  (ofKind kind.name).withAttribute "val" value

/-- A named child that holds a payload. -/
def named (name : String) (payload : Node) : Node :=
  ((ofKind "attribute").withAttribute "name" name).addChild payload

/-- A named child that holds records. -/
def namedRecords (name : String) (records : List Node) : Node :=
  { (ofKind "attribute").withAttribute "name" name with children := records }

/-- A string between its two sharps. -/
def ofString (value : String) : Node :=
  (ofKind PayloadKind.string.name).addText ("#" ++ value ++ "#")

/-- A real number. -/
def ofReal (value : Float) : Node := ofValue .real (floatText value)

/-- A truth value. -/
def ofBool (value : Bool) : Node := ofValue .boolean (if value then "true" else "false")

/-- A code. -/
def ofCode (value : Int64) : Node := ofValue .enumeration (toString value.toInt)

/-- A point. -/
def ofPoint (p : Point) : Node := ofValue .point (floatText p.x ++ "," ++ floatText p.y)

/-- A composite record of a type. -/
def composite (type : String) : Node := (ofKind "composite").withAttribute "type" type

/-- An object of a type, with its id. -/
def object (type id : String) : Node :=
  ((ofKind "object").withAttribute "type" type).withAttribute "id" id

/-- The connection element of a connection. -/
def ofConnection (c : Connection) : Node :=
  ((ofKind "connection").withAttribute "handle" (toString c.handle.toNat)).withAttribute "to"
    c.target

/-- The connections of an edge. -/
def ofConnections (cs : List Connection) : Node :=
  { ofKind "connections" with children := cs.map ofConnection }

end ClassDiagram.Node
