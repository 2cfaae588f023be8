import ClassDiagram.Model.Entity
import ClassDiagram.Outcome.Traced
import ClassDiagram.Stereotype.Token

/-!
# Stereotypes of members

The name of a member may begin with a stereotype in guillemets, `<<var>> owner`, which says how the
member is bound.  The mutability of the entity has the last word on the binding of its attributes
(`bindMember`).
-/

namespace ClassDiagram.Stereotype

open Text

/-! ### Names -/

/-- A name with the stereotype before it. -/
structure MemberName where
  /-- The stereotype, if there is one. -/
  stereotype : Option String
  /-- The name. -/
  name : String
deriving DecidableEq

/-- The name of a member and its stereotype.  A text that does not begin with closed guillemets is
all name. -/
def splitMemberName (text : String) : MemberName :=
  let whole := trim text.toList
  match ("<<".toList.isPrefixOf? whole).bind (cutAt ">>".toList) with
  | some (stereotype, name) =>
    ⟨some (String.ofList (trim stereotype)), String.ofList (trim name)⟩
  | none => ⟨none, String.ofList whole⟩

/-- A name with the type declared after a colon.  A blank type is no type. -/
def splitRoleType (role : String) : String × Option String :=
  match cutAt [':'] role.toList with
  | some (name, type) =>
    (String.ofList (trim name), if isBlank type then none else some (String.ofList (trim type)))
  | none => (trimmed role, none)

/-! ### Bindings -/

/-- How an attribute is bound. -/
inductive Binding where
  /-- It keeps its value. -/
  | val
  /-- It can be assigned again. -/
  | var
  /-- It keeps a value that is computed on first use. -/
  | lazyVal
deriving DecidableEq

namespace Binding

/-- The binding that a stereotype names. -/
def ofStereotype? (token : String) : Option Binding :=
  if token = "val" then some val
  else if token = "var" then some var
  else if token = "lazy" then some lazyVal
  else none

/-- The attribute cannot be assigned again. -/
def isVal (b : Binding) : Bool := b ≠ var

/-- The value is computed on first use. -/
def isLazy (b : Binding) : Bool := b = lazyVal

/-- An entity of this mutability cannot have an attribute of this binding. -/
def contradicts (b : Binding) : Mutability → Bool
  | .immutable => b = var
  | .mutable => b ≠ var

end Binding

/-- The binding of an attribute as its entity keeps it. -/
structure MemberFlags where
  /-- The attribute cannot be assigned again. -/
  isVal : Bool
  /-- The value is computed on first use. -/
  isLazy : Bool
deriving DecidableEq

/-- The flags of a binding in an entity of the given mutability. -/
def MemberFlags.ofBinding (binding : Binding) (mutability : Option Mutability) : MemberFlags where
  isVal := match mutability with
    | some .immutable => true
    | some .mutable => false
    | none => binding.isVal
  isLazy := binding.isLazy

/-- The binding of an attribute of the entity `owner`.  A stereotype that contradicts the mutability
of the entity is refused; one that means nothing is reported and taken for `val`, as is none. -/
def bindMember (owner : String) (mutability : Option Mutability) (name : String)
    (stereotype : Option String) : Traced MemberFlags :=
  match stereotype with
  | none => .ok (.ofBinding .val mutability)
  | some token =>
    match Binding.ofStereotype? token with
    | some binding =>
      if mutability.any binding.contradicts then .fail (.mutabilityMismatch owner name token)
      else .ok (.ofBinding binding mutability)
    | none => do
      Traced.warn [.unknownAttributeStereotype owner name token]
      return .ofBinding .val mutability

end ClassDiagram.Stereotype
