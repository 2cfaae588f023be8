import ClassDiagram.Drawing.Payload
import ClassDiagram.Model.Basic
import ClassDiagram.Outcome.Traced

/-!
# Reading packages

Two types of objects draw packages.  The large ones come before the small ones, each in document
order.
-/

namespace ClassDiagram

open Text

/-- The objects that draw packages. -/
def Node.packageObjects (drawing : Node) : List Node :=
  drawing.query "object" "UML - LargePackage" ++ drawing.query "object" "UML - SmallPackage"

/-- The package that an object draws. -/
def Package.read (n : Node) : Except DrawingError Package := do
  let name ← n.string "name"
  let geometry ← n.rectangle
  return ⟨trimmed name, geometry⟩

/-- The packages of a drawing. -/
def Package.readAll (drawing : Node) : Traced (List Package) := do
  Traced.enter .packages
  Traced.ofDrawing (drawing.packageObjects.mapM Package.read)

end ClassDiagram
