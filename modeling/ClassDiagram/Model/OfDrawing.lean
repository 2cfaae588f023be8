import ClassDiagram.Companion
import ClassDiagram.Edge.Association
import ClassDiagram.Edge.Dependency
import ClassDiagram.Edge.Generalization
import ClassDiagram.Edge.Realization
import ClassDiagram.Markup.Document
import ClassDiagram.Override
import ClassDiagram.Reading.Class
import ClassDiagram.Reading.Package
import ClassDiagram.Resolution
import ClassDiagram.Validation

/-!
# The model of a drawing

`Model.ofDrawing` takes a drawing through all stages, `Model.ofDocument` the text of a document.
The first stage that fails ends the way, except that validation reports everything that is wrong.
-/

namespace ClassDiagram

namespace Model

/-- The model with every entity in its package, as a stage. -/
def packageStage (m : Model) : Traced Model := do
  Traced.enter .packageAssignment
  return m.assignPackages

/-- The model with its drawn companions marked, as a stage. -/
def companionStage (m : Model) : Traced Model := do
  Traced.enter .companions
  return m.markCompanions

/-- The packages and the classes of a drawing, every class in its package and with its
companion. -/
def entitiesOfDrawing (drawing : Node) (imports : ImportTable) : Traced Model := do
  let packages ← Package.readAll drawing
  let entities ← Entity.readAll drawing
  let m ← (ofParts packages entities imports).packageStage
  let m ← m.companionStage
  Traced.ofExcept m.splitCompanions

/-- The model with the edges of a drawing. -/
def resolveEdges (drawing : Node) (m : Model) : Traced Model := do
  let m ← m.resolveGeneralizations drawing
  let m ← m.resolveRealizations drawing
  let m ← m.resolveDependencies drawing
  m.resolveAssociations drawing

/-- The model of a drawing. -/
def ofDrawing (drawing : Node) (imports : ImportTable) : Traced Model := do
  let m ← entitiesOfDrawing drawing imports
  let m ← m.resolveEdges drawing
  let m ← m.resolveCrossReferences
  let m ← m.analyzeOverrides
  m.check

/-- The model of the drawing stored in the text of a document. -/
def ofDocument (document : String) (imports : ImportTable) : Traced Model := do
  let drawing ← Traced.ofDrawing ((Node.ofDocument document).mapError .markup)
  ofDrawing drawing imports

end Model

end ClassDiagram
