import ClassDiagram.Drawing.Error
import ClassDiagram.Drawing.Node
import ClassDiagram.Geometry
import ClassDiagram.Number.Decimal
import ClassDiagram.Text.Blank
import ClassDiagram.Text.Cut

/-!
# Payloads

A named child of an element is an `attribute` element whose `name` is the name asked for.  Its
first child is its payload:

    <attribute name="name"><string>#Vehicle#</string></attribute>
    <attribute name="elem_width"><real val="4.5"/></attribute>
    <attribute name="class_scope"><boolean val="false"/></attribute>
    <attribute name="visibility"><enum val="0"/></attribute>
    <attribute name="elem_corner"><point val="1,2.5"/></attribute>

A string stands between two sharps in the text of its element; every other payload is the
attribute `val` of its element, with any white space around it.
-/

namespace ClassDiagram.Node

open Text Number

/-! ### Payload elements -/

/-- The first named child of this name. -/
def namedChild? (n : Node) (name : String) : Option Node :=
  n.children.find? fun c => c.kind = "attribute" && c.attribute? "name" = some name

/-- The payload element under a name, which has to be of the kind expected. -/
def payload (n : Node) (name : String) (expected : PayloadKind) : Except DrawingError Node :=
  match (n.namedChild? name).bind fun c => c.children.head? with
  | none => .error (.missingChild name n.describe)
  | some p =>
    if p.kind = expected.name then .ok p
    else .error (.wrongPayload name n.describe expected p.kind)

/-- The attribute `val` of the payload under a name. -/
def payloadValue (n : Node) (name : String) (expected : PayloadKind) :
    Except DrawingError String := do
  let p ← n.payload name expected
  match p.attribute? "val" with
  | some value => return value
  | none => throw (.missingAttribute (name ++ ".val") n.describe)

/-- The payload under a name as read by `read?`. -/
def payloadAs {α : Type} (n : Node) (name : String) (expected : PayloadKind)
    (read? : List Char → Option α) : Except DrawingError α := do
  let value ← n.payloadValue name expected
  match read? value.toList with
  | some a => return a
  | none => throw (.invalid expected name n.describe value)

/-! ### The value of a payload -/

/-- The text between a sharp at the beginning and another one at the end. -/
def unfenced? : List Char → Option (List Char)
  | '#' :: cs => if cs.getLast? = some '#' then some cs.dropLast else none
  | _ => none

/-- A truth value in ASCII letters of any case. -/
def bool? (s : List Char) : Option Bool :=
  let word := String.ofList (s.map Char.toLower)
  if word = "true" then some true else if word = "false" then some false else none

/-- Two numbers on both sides of a comma. -/
def point? (s : List Char) : Option Point := do
  let (x, y) ← cutAt [','] s
  return ⟨← float? (trim x), ← float? (trim y)⟩

/-- The string under a name. -/
def string (n : Node) (name : String) : Except DrawingError String := do
  let p ← n.payload name .string
  match unfenced? p.text.toList with
  | some s => return String.ofList s
  | none => throw (.invalid .string name n.describe p.text)

/-- The string under a name, `none` if there is no such child. -/
def optionalString (n : Node) (name : String) : Except DrawingError (Option String) :=
  match n.namedChild? name with
  | none => .ok none
  | some _ => (n.string name).map some

/-- The real number under a name. -/
def real (n : Node) (name : String) : Except DrawingError Float :=
  n.payloadAs name .real fun s => float? (trim s)

/-- The truth value under a name. -/
def boolean (n : Node) (name : String) : Except DrawingError Bool :=
  n.payloadAs name .boolean fun s => bool? (trim s)

/-- The code under a name. -/
def enumeration (n : Node) (name : String) : Except DrawingError Int64 :=
  n.payloadAs name .enumeration fun s => int64? (trim s)

/-- The point under a name. -/
def point (n : Node) (name : String) : Except DrawingError Point :=
  n.payloadAs name .point point?

/-- The composite records under a name, in document order; none if there is no such child. -/
def records (n : Node) (name : String) : List Node :=
  match n.namedChild? name with
  | some c => c.children.filter fun r => r.kind = "composite"
  | none => []

/-- The composite records of one type under a name. -/
def recordsOfType (n : Node) (name type : String) : List Node :=
  (n.records name).filter fun r => r.type? = some type

/-- The rectangle an object is drawn in. -/
def rectangle (n : Node) : Except DrawingError Rectangle := do
  let corner ← n.point "elem_corner"
  let width ← n.real "elem_width"
  let height ← n.real "elem_height"
  return ⟨corner.x, corner.y, width, height⟩

end ClassDiagram.Node
