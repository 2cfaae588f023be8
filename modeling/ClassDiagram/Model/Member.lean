import ClassDiagram.TypeExpr.Basic

/-!
# Members

The attributes and the operations of an entity.
-/

namespace ClassDiagram

/-- From where a member can be seen. -/
inductive Visibility where
  /-- From everywhere. -/
  | pub
  /-- From the entity itself. -/
  | priv
  /-- From the entity and those that inherit from it. -/
  | prot
  /-- From the package of the entity. -/
  | implementation
deriving DecidableEq

/-- The visibility of a code.  Codes without a meaning of their own are public. -/
def Visibility.ofCode (code : Int64) : Visibility :=
  if code = 1 then priv
  else if code = 2 then prot
  else if code = 3 then implementation
  else pub

/-- An attribute of an entity. -/
structure Attribute where
  /-- The name of the attribute. -/
  name : String
  /-- The declared type; `none` when the drawing leaves it blank. -/
  type : Option TypeExpr
  /-- From where the attribute can be seen. -/
  visibility : Visibility
  /-- The attribute cannot be assigned again. -/
  isVal : Bool
  /-- The text of the default value. -/
  default : Option String
  /-- The value is computed on first use. -/
  isLazy : Bool
  /-- An ancestor of the entity has a member that this one overrides. -/
  isOverriding : Bool
  /-- The attribute belongs to the class and not to its instances. -/
  isClassScope : Bool
deriving DecidableEq

/-- A parameter of an operation. -/
structure Parameter where
  /-- The name of the parameter. -/
  name : String
  /-- The type of the parameter. -/
  type : TypeExpr
  /-- The text of the default value. -/
  default : Option String
deriving DecidableEq

/-- An operation of an entity. -/
structure Operation where
  /-- The name of the operation. -/
  name : String
  /-- From where the operation can be seen. -/
  visibility : Visibility
  /-- The parameters, in order. -/
  parameters : List Parameter
  /-- The type of the result; `none` when the drawing leaves it blank. -/
  returnType : Option TypeExpr
  /-- An ancestor of the entity has a member that this one overrides. -/
  isOverriding : Bool
  /-- The operation belongs to the class and not to its instances. -/
  isClassScope : Bool
deriving DecidableEq

namespace Operation

/-- The types of the parameters, in order. -/
def signature (o : Operation) : List TypeExpr :=
  o.parameters.map Parameter.type

end Operation

/-! ### Types of members -/

section MapTypes

variable (f : EntityRef → EntityRef)

/-- The attribute with `f` applied to every reference in its type. -/
def Attribute.mapTypes (a : Attribute) : Attribute :=
  { a with type := a.type.map (TypeExpr.mapLeaves f) }

/-- The parameter with `f` applied to every reference in its type. -/
def Parameter.mapTypes (p : Parameter) : Parameter :=
  { p with type := p.type.mapLeaves f }

/-- The operation with `f` applied to every reference in the types of its parameters and of its
result. -/
def Operation.mapTypes (o : Operation) : Operation :=
  { o with
    parameters := o.parameters.map (Parameter.mapTypes f)
    returnType := o.returnType.map (TypeExpr.mapLeaves f) }

end MapTypes

end ClassDiagram
