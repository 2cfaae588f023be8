import ClassDiagram.Drawing.Payload
import ClassDiagram.Model.Basic
import ClassDiagram.Outcome.Traced
import ClassDiagram.Stereotype.Class
import ClassDiagram.Stereotype.Member

/-!
# Reading classes

Every class object of a drawing becomes an entity: its name and its stereotypes first, then its
attributes and its operations in the order in which they are recorded.
-/

namespace ClassDiagram

open Text Stereotype

/-! ### Payloads of members -/

/-- The type expression in a text, which stands at `site`. -/
def TypeExpr.readAt (site : TypeSite) (text : String) : Except ModelError TypeExpr :=
  (TypeExpr.parse text).mapError (.typeExpr site)

/-- The type expression in a text that stands at `site`, if the text is not blank. -/
def TypeExpr.readUnlessBlank (site : TypeSite) (text : String) :
    Except ModelError (Option TypeExpr) :=
  if blank text then .ok none else (TypeExpr.readAt site text).map some

/-- The default value that a record holds, if it is not blank. -/
def Node.defaultValue (record : Node) : Except DrawingError (Option String) :=
  (record.optionalString "value").map fun value => value.filter fun v => !blank v

/-- The visibility that a record holds. -/
def Node.visibility (record : Node) (name : String) : Except DrawingError Visibility :=
  (record.enumeration name).map Visibility.ofCode

/-! ### Members -/

/-- The attribute of a record of the entity named `owner`. -/
def Attribute.read (owner : String) (mutability : Option Mutability) (record : Node) :
    Traced Attribute := do
  let member := splitMemberName (← record.string "name")
  let flags ← bindMember owner mutability member.name member.stereotype
  let type ← TypeExpr.readUnlessBlank (.attributeType member.name owner) (← record.string "type")
  let visibility ← record.visibility "visibility"
  let default ← record.defaultValue
  let isClassScope ← record.boolean "class_scope"
  return {
    name := member.name
    type := type
    visibility := visibility
    isVal := flags.isVal
    default := default
    isLazy := flags.isLazy
    isOverriding := false
    isClassScope := isClassScope }

/-- The parameter of a record of an operation. -/
def Parameter.read (owner operation : String) (record : Node) : Except ModelError Parameter := do
  let name ← (record.string "name").mapError .drawing
  let text ← (record.string "type").mapError .drawing
  let type ← TypeExpr.readAt (.parameterType (trimmed name) operation owner) text
  let default ← record.defaultValue.mapError .drawing
  return ⟨trimmed name, type, default⟩

/-- The operation of a record of the entity named `owner`. -/
def Operation.read (owner : String) (record : Node) : Except ModelError Operation := do
  let name ← (record.string "name").mapError .drawing
  let name := trimmed name
  let text ← (record.string "type").mapError .drawing
  let returnType ← TypeExpr.readUnlessBlank (.returnType name owner) text
  let visibility ← (record.visibility "visibility").mapError .drawing
  let isClassScope ← (record.boolean "class_scope").mapError .drawing
  let parameters ←
    (record.recordsOfType "parameters" "umlparameter").mapM (Parameter.read owner name)
  return {
    name := name
    visibility := visibility
    parameters := parameters
    returnType := returnType
    isOverriding := false
    isClassScope := isClassScope }

/-! ### Entities -/

/-- The id of an object, which has to have one. -/
def Node.requiredId (n : Node) : Except DrawingError String :=
  match n.id? with
  | some id => .ok id
  | none => .error (.missingAttribute "id" n.describe)

/-- The entity that an object draws. -/
def Entity.read (n : Node) : Traced Entity := do
  let id ← n.requiredId
  let name := trimmed (← n.string "name")
  let geometry ← n.rectangle
  let stereotype ← n.optionalString "stereotype"
  let stereotypes ← ClassStereotypes.read name (stereotype.getD "")
  Traced.warn (stereotypes.unknown.map (.unknownClassStereotype name))
  let entity : Entity := {
    id := id
    reference := EntityRef.unqualified name
    geometry := geometry
    kind := stereotypes.kind
    isMutable := stereotypes.isMutable
    isImmutable := stereotypes.isImmutable
    superclass := none
    mixins := []
    attributes := []
    operations := []
    hasCompanion := false }
  let attributes ←
    (n.recordsOfType "attributes" "umlattribute").mapM (Attribute.read name entity.mutability)
  let operations ← (n.recordsOfType "operations" "umloperation").mapM fun record =>
    Traced.ofExcept (Operation.read name record)
  return { entity with attributes := attributes, operations := operations }

/-- The entities of a drawing. -/
def Entity.readAll (drawing : Node) : Traced (List Entity) := do
  Traced.enter .classes
  (drawing.query "object" "UML - Class").mapM Entity.read

end ClassDiagram
