import ClassDiagram.Geometry
import ClassDiagram.Model.Member

/-!
# Entities

The classes, traits, enumerations and objects of a model.
-/

namespace ClassDiagram

/-- What an entity is declared as. -/
inductive EntityKind where
  /-- A class. -/
  | cls
  /-- A trait. -/
  | trait
  /-- An enumeration. -/
  | enumeration
  /-- A single object, drawn as one or standing beside a class as its companion. -/
  | object
deriving DecidableEq

/-- Classes, traits and enumerations can be inherited from; objects cannot. -/
def EntityKind.isInheritable (k : EntityKind) : Bool := k ≠ object

/-- What is declared about the attributes of an entity as a whole. -/
inductive Mutability where
  /-- Every attribute can be assigned again. -/
  | mutable
  /-- No attribute can be assigned again. -/
  | immutable
deriving DecidableEq

/-- A class, trait, enumeration or object. -/
structure Entity where
  /-- The id of the object that draws the entity. -/
  id : String
  /-- The name and the package of the entity. -/
  reference : EntityRef
  /-- Where the entity is drawn. -/
  geometry : Rectangle
  /-- What the entity is declared as. -/
  kind : EntityKind
  /-- The entity is declared mutable. -/
  isMutable : Bool
  /-- The entity is declared immutable. -/
  isImmutable : Bool
  /-- The superclass. -/
  superclass : Option TypeExpr
  /-- The traits and mixins, in the order of their edges. -/
  mixins : List TypeExpr
  /-- The attributes, in order. -/
  attributes : List Attribute
  /-- The operations, in order. -/
  operations : List Operation
  /-- An object of the same name stands beside the entity. -/
  hasCompanion : Bool

namespace Entity

/-- The name of the entity. -/
def name (e : Entity) : String := e.reference.name

/-- The package of the entity; empty if it has none. -/
def package (e : Entity) : String := e.reference.package

/-- The entity is a single object. -/
def isObject (e : Entity) : Bool := e.kind = .object

/-- The declared mutability, if just one of the two is declared. -/
def mutability (e : Entity) : Option Mutability :=
  match e.isMutable, e.isImmutable with
  | true, false => some .mutable
  | false, true => some .immutable
  | _, _ => none

/-- Some member belongs to the class and not to its instances. -/
def hasClassScope (e : Entity) : Bool :=
  e.attributes.any Attribute.isClassScope || e.operations.any Operation.isClassScope

/-- The entity in a package. -/
def withPackage (e : Entity) (package : String) : Entity :=
  { e with reference := e.reference.withPackage package }

/-- The entity with an attribute added after its attributes. -/
def addAttribute (e : Entity) (a : Attribute) : Entity :=
  { e with attributes := e.attributes ++ [a] }

/-- The entity with `f` applied to every reference in the types of its members. -/
def mapTypes (f : EntityRef → EntityRef) (e : Entity) : Entity :=
  { e with
    attributes := e.attributes.map (Attribute.mapTypes f)
    operations := e.operations.map (Operation.mapTypes f) }

end Entity

end ClassDiagram
