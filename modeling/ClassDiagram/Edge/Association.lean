import ClassDiagram.Edge.Endpoint
import ClassDiagram.Reading.Class

/-!
# Associations

An association has an end `a` at its handle 0 and an end `b` at its handle 1.  An end with a role or
an arrow adds an attribute to the entity at the other end.  The role gives the name of the attribute
and its binding; its type is the one declared in the role, or else the entity at its own end, alone
or as many as the multiplicity says.
-/

namespace ClassDiagram

open Text Stereotype

/-! ### Ends -/

/-- An end of an association. -/
inductive AssociationSide where
  /-- The end at handle 0. -/
  | a
  /-- The end at handle 1. -/
  | b
deriving DecidableEq

namespace AssociationSide

/-- Both ends, in the order in which they are read. -/
def all : List AssociationSide := [a, b]

/-- The handle of an end. -/
def handle : AssociationSide → UInt64
  | a => 0
  | b => 1

/-- The name under which a drawing keeps a payload of an end. -/
def payloadName (side : AssociationSide) (what : String) : String :=
  what ++ match side with
    | a => "_a"
    | b => "_b"

/-- The other end. -/
def opposite : AssociationSide → AssociationSide
  | a => b
  | b => a

end AssociationSide

/-- What a drawing says about an end of an association. -/
structure AssociationEnd where
  /-- The role: the name of an attribute, with a stereotype and a type if need be. -/
  role : String
  /-- How many entities stand at the end. -/
  multiplicity : String
  /-- The visibility of the attribute. -/
  visibility : Visibility
  /-- The end is drawn with an arrow. -/
  showArrow : Bool
deriving DecidableEq

namespace AssociationEnd

/-- Reads an end of the association drawn by `edge`.  The name for the multiplicity is spelled as
drawings spell it. -/
def read (edge : Node) (side : AssociationSide) : Except DrawingError AssociationEnd := do
  let role ← edge.string (side.payloadName "role")
  let multiplicity ← edge.string (side.payloadName "multipicity")
  let visibility ← edge.visibility (side.payloadName "visibility")
  let showArrow ← edge.boolean (side.payloadName "show_arrow")
  return ⟨role, multiplicity, visibility, showArrow⟩

/-- The end has a role or an arrow. -/
def isNavigable (e : AssociationEnd) : Bool := !blank e.role || e.showArrow

end AssociationEnd

/-- As many values of a type as a multiplicity says: one, one or none, or any number. -/
def TypeExpr.ofMultiplicity (multiplicity : String) (target : TypeExpr) : TypeExpr :=
  let m := trimmed multiplicity
  if m = "0..1" ∨ m = "0-1" then optionOf target
  else if m = "*" ∨ m = "n" ∨ m = "0..*" then seqOf target
  else target

/-! ### Attributes -/

/-- The attribute that an end of `edge` adds to `owner`, when `target` stands at that end. -/
def AssociationEnd.toAttribute (edge : Node) (e : AssociationEnd) (owner target : Entity) :
    Traced Attribute := do
  let member := splitMemberName e.role
  let (name, declared) := splitRoleType member.name
  if name = "" then Traced.fail (.emptyAttributeName edge.describe owner.reference)
  else
    let flags ← bindMember owner.name owner.mutability name member.stereotype
    let type ← match declared with
      | some text => TypeExpr.readAt (.roleType name owner.name) text
      | none => .ok (TypeExpr.ofMultiplicity e.multiplicity (.user target.reference))
    return {
      name := name
      type := some type
      visibility := e.visibility
      isVal := flags.isVal
      default := none
      isLazy := flags.isLazy
      isOverriding := false
      isClassScope := false }

/-- An attribute with the position of the entity it is added to. -/
structure AttributeAddition where
  /-- The position of the entity. -/
  position : Nat
  /-- The attribute. -/
  added : Attribute

/-- The entities with an attribute added to one of them. -/
def addAttributeAt (es : List Entity) (addition : AttributeAddition) : List Entity :=
  es.modify addition.position fun e => e.addAttribute addition.added

namespace Model

/-- The attribute that one end of an association adds, if it adds one.  `own` is the position of the
entity at this end, `opposite` that of the entity at the other end. -/
def associationEndAddition (m : Model) (edge : Node) (side : AssociationSide)
    (own opposite : Nat) : Traced (Option AttributeAddition) := do
  let e ← AssociationEnd.read edge side
  if e.isNavigable then
    match m.entities[opposite]?, m.entities[own]? with
    | some owner, some target =>
      return some ⟨opposite, ← e.toAttribute edge owner target⟩
    | _, _ => return none
  else return none

/-- The attributes that an association adds. -/
def associationAdditions (m : Model) (edge : Node) : Traced (List AttributeAddition) := do
  let ends ← m.endpoints edge
  let first ← m.associationEndAddition edge .a ends.source ends.target
  let second ← m.associationEndAddition edge .b ends.target ends.source
  return first.toList ++ second.toList

/-- The model with attributes added. -/
def addAttributes (m : Model) (additions : List AttributeAddition) : Model :=
  m.withEntities (additions.foldl addAttributeAt m.entities)

/-- The model with the attributes of the associations of a drawing. -/
def resolveAssociations (drawing : Node) (m : Model) : Traced Model := do
  Traced.enter .associations
  let additions ← (drawing.query "object" "UML - Association").mapM m.associationAdditions
  return m.addAttributes additions.flatten

end Model

end ClassDiagram
