import ClassDiagram.Model.Entity
import ClassDiagram.Outcome.Error
import ClassDiagram.Stereotype.Token

/-!
# Stereotypes of classes

The stereotypes of a class say what kind of entity it is and whether its attributes can be assigned
again.  At most one of them may name a kind, and not both mutabilities may be declared; whatever
means nothing is kept in order.
-/

namespace ClassDiagram

/-- The kind of entity that a stereotype names. -/
def EntityKind.ofStereotype? (token : String) : Option EntityKind :=
  if token = "interface" ∨ token = "trait" then some .trait
  else if token = "enum" ∨ token = "enumeration" then some .enumeration
  else if token = "singleton" ∨ token = "object" then some .object
  else none

namespace Stereotype

/-- What the stereotypes of a class say. -/
structure ClassStereotypes where
  /-- The kind of entity. -/
  kind : EntityKind
  /-- The entity is mutable. -/
  isMutable : Bool
  /-- The entity is immutable. -/
  isImmutable : Bool
  /-- The stereotypes that mean nothing, in order. -/
  unknown : List String
deriving DecidableEq

namespace ClassStereotypes

/-- A class without stereotypes. -/
def initial : ClassStereotypes := ⟨.cls, false, false, []⟩

/-- What is said with the stereotype `token` added, when it names no kind. -/
def addFlag (s : ClassStereotypes) (token : String) : ClassStereotypes :=
  if token = "mutable" then { s with isMutable := true }
  else if token = "immutable" then { s with isImmutable := true }
  else { s with unknown := s.unknown ++ [token] }

/-- Reads more stereotypes of an entity.  `first` is the one that named a kind so far. -/
def addTokens (entity : String) (s : ClassStereotypes) (first : Option String) :
    List String → Except ModelError ClassStereotypes
  | [] => .ok s
  | token :: rest =>
    match EntityKind.ofStereotype? token, first with
    | some _, some first => .error (.conflictingKinds entity first token)
    | some kind, none => addTokens entity { s with kind := kind } (some token) rest
    | none, first => addTokens entity (s.addFlag token) first rest

/-- What the list of stereotypes of the entity named `entity` says. -/
def read (entity text : String) : Except ModelError ClassStereotypes := do
  let s ← addTokens entity initial none (splitTokens text)
  if s.isMutable ∧ s.isImmutable then throw (.conflictingMutability entity)
  return s

end ClassStereotypes

end Stereotype

end ClassDiagram
