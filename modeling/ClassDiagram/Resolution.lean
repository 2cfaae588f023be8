import ClassDiagram.Model.Basic
import ClassDiagram.Outcome.Traced

/-!
# Qualifying references

The types of members name entities without their packages.  A reference without a package gets the
package of the first entity of that name (`Model.resolveDrawn`), or else that of the import table
(`Model.resolveImported`); one that neither knows is left alone.
-/

namespace ClassDiagram

/-- A reference in the package of the first of the entities that bears its name, unless it has a
package already. -/
def EntityRef.resolveDrawn (entities : List Entity) (r : EntityRef) : EntityRef :=
  if r.isQualified then r
  else match entities.find? fun e => e.name = r.name with
    | some e => r.withPackage e.package
    | none => r

/-- A reference in the package that an import table gives for it, unless it has a package
already. -/
def EntityRef.resolveImported (imports : ImportTable) (r : EntityRef) : EntityRef :=
  if r.isQualified then r
  else match ImportTable.package? imports r.name with
    | some package => r.withPackage package
    | none => r

namespace Model

/-- The model with `f` applied to every reference in the types of members. -/
def mapTypes (m : Model) (f : EntityRef → EntityRef) : Model :=
  m.mapEntities (Entity.mapTypes f)

/-- The model with the references to its own entities qualified. -/
def resolveDrawn (m : Model) : Model :=
  m.mapTypes (EntityRef.resolveDrawn m.entities)

/-- The model with the references to classes of an import table qualified. -/
def resolveImported (m : Model) (imports : ImportTable) : Model :=
  m.mapTypes (EntityRef.resolveImported imports)

/-- The model with its references qualified, by its own entities first and by its import table
after that. -/
def qualifyReferences (m : Model) : Model :=
  m.resolveDrawn.resolveImported m.imports

/-- The model with its references qualified, as a stage. -/
def resolveCrossReferences (m : Model) : Traced Model := do
  Traced.enter .crossReferences
  return m.qualifyReferences

end Model

end ClassDiagram
