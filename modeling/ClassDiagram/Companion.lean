import ClassDiagram.Model.Basic
import ClassDiagram.Outcome.Traced

/-!
# Packages and companions of entities

An entity belongs to the first package that encloses it (`Model.assignPackages`).  A class that
shares its reference with an object has that object for its companion (`Model.markCompanions`).
Members that belong to a class and not to its instances move to a new object right after the class
(`Model.splitCompanions`).
-/

namespace ClassDiagram

/-! ### Packages -/

/-- The name of the first package that encloses a rectangle, empty if there is none. -/
def packageAround (packages : List Package) (r : Rectangle) : String :=
  match packages.find? fun p => p.geometry.Encloses r with
  | some p => p.name
  | none => ""

namespace Model

/-- The model with every entity in its package. -/
def assignPackages (m : Model) : Model :=
  m.mapEntities fun e => e.withPackage (packageAround m.packages e.geometry)

end Model

/-! ### Companions that are drawn -/

/-- Some object among the entities has the reference. -/
def hasObject (entities : List Entity) (r : EntityRef) : Bool :=
  entities.any fun e => e.isObject && e.reference = r

namespace Model

/-- The model with every class marked whose reference is that of an object. -/
def markCompanions (m : Model) : Model :=
  m.mapEntities fun e =>
    if e.kind = .cls ∧ hasObject m.entities e.reference then { e with hasCompanion := true } else e

end Model

/-! ### Companions that are made -/

namespace Entity

/-- The entity has to give members to a companion. -/
def needsCompanion (e : Entity) : Bool := !e.isObject && e.hasClassScope

/-- The entity without the members that belong to its companion. -/
def instancePart (e : Entity) : Entity :=
  { e with
    attributes := e.attributes.filter fun a => !a.isClassScope
    operations := e.operations.filter fun o => !o.isClassScope
    hasCompanion := true }

/-- The companion of an entity, with the members that belong to it. -/
def companion (e : Entity) : Entity where
  id := e.id ++ "_companion"
  reference := e.reference
  geometry := e.geometry
  kind := .object
  isMutable := false
  isImmutable := false
  superclass := none
  mixins := []
  attributes := e.attributes.filter Attribute.isClassScope
  operations := e.operations.filter Operation.isClassScope
  hasCompanion := false

/-- The entity, followed by its companion if it needs one. -/
def withCompanion (e : Entity) : List Entity :=
  if e.needsCompanion then [e.instancePart, e.companion] else [e]

end Entity

namespace Model

/-- The model with a companion after every entity that needs one.  The first such entity that
shares its reference with an object is an error. -/
def splitCompanions (m : Model) : Except ModelError Model :=
  match m.entities.find? fun e => e.needsCompanion && hasObject m.entities e.reference with
  | some e => .error (.companionExists e.reference)
  | none => .ok (m.withEntities (m.entities.flatMap Entity.withCompanion))

end Model

end ClassDiagram
