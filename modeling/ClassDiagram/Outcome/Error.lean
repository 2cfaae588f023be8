import ClassDiagram.Drawing.Error
import ClassDiagram.Outcome.Diagnostic
import ClassDiagram.TypeExpr.Parser

/-!
# Errors

The causes for which a drawing has no model, with the wording of each.
-/

namespace ClassDiagram

/-- Where a type expression stands in a drawing. -/
inductive TypeSite where
  /-- The type of an attribute. -/
  | attributeType (name owner : String)
  /-- The return type of an operation. -/
  | returnType (operation owner : String)
  /-- The type of a parameter. -/
  | parameterType (name operation owner : String)
  /-- The type declared in a role of an association. -/
  | roleType (name owner : String)
deriving DecidableEq

/-- How messages call a place of a type expression. -/
def TypeSite.describe : TypeSite → String
  | attributeType name owner => "type of attribute '" ++ name ++ "' of '" ++ owner ++ "'"
  | returnType operation owner =>
    "return type of operation '" ++ operation ++ "' of '" ++ owner ++ "'"
  | parameterType name operation owner =>
    "type of parameter '" ++ name ++ "' of operation '" ++ operation ++ "' of '" ++ owner ++ "'"
  | roleType name owner => "type of association role '" ++ name ++ "' on '" ++ owner ++ "'"

/-- Why a drawing has no model. -/
inductive ModelError where
  /-- Something cannot be read from the drawing. -/
  | drawing (cause : DrawingError)
  /-- A text is no type expression. -/
  | typeExpr (site : TypeSite) (cause : TypeExpr.ParseError)
  /-- The stereotype of an entity says twice what the entity is. -/
  | conflictingKinds (entity first second : String)
  /-- The stereotype of an entity says both mutable and immutable. -/
  | conflictingMutability (entity : String)
  /-- The stereotype of an attribute contradicts the mutability of its entity. -/
  | mutabilityMismatch (entity name stereotype : String)
  /-- An entity needs a companion, but an object of the same name exists already. -/
  | companionExists (entity : EntityRef)
  /-- An edge is attached to an id that no entity has. -/
  | unresolvedConnection (edge id : String)
  /-- An entity has several superclasses. -/
  | multipleGeneralizations (entity : EntityRef)
  /-- The role at an end of an association has no name. -/
  | emptyAttributeName (edge : String) (entity : EntityRef)
  /-- A chain of superclasses comes back to a reference on it; the last of the chain is the one
  that occurs twice. -/
  | cyclicInheritance (chain : List EntityRef)
  /-- The final check found these problems. -/
  | invalid (diagnostics : List Diagnostic)
deriving DecidableEq

/-- What is reported to the reader of the diagram. -/
def ModelError.message : ModelError → String
  | drawing cause => "Diagram error: " ++ cause.message
  | typeExpr site cause => "In " ++ site.describe ++ ": " ++ cause.message
  | conflictingKinds entity first second =>
    "Entity '" ++ entity ++ "' declares conflicting stereotypes '" ++ first ++ "' and '" ++
      second ++ "'"
  | conflictingMutability entity =>
    "Entity '" ++ entity ++ "' is declared both mutable and immutable"
  | mutabilityMismatch entity name stereotype =>
    "Attribute '" ++ name ++ "' of '" ++ entity ++ "' is declared '" ++ stereotype ++
      "', contradicting the entity's mutability"
  | companionExists entity =>
    "Cannot synthesize a companion for '" ++ entity.qualifiedName ++
      "': an object with the same name already exists"
  | unresolvedConnection edge id => edge ++ " is connected to unknown object '" ++ id ++ "'"
  | multipleGeneralizations entity =>
    "Multiple generalizations for entity '" ++ entity.qualifiedName ++ "'"
  | emptyAttributeName edge entity =>
    edge ++ " yields an attribute with an empty name on '" ++ entity.qualifiedName ++ "'"
  | cyclicInheritance chain =>
    "Cyclic inheritance: " ++ " -> ".intercalate (chain.map EntityRef.qualifiedName)
  | invalid diagnostics => Diagnostic.report diagnostics

end ClassDiagram
