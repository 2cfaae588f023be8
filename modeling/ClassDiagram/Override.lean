import ClassDiagram.Ancestry
import ClassDiagram.Outcome.Traced

/-!
# Overriding members

A member overrides a member of an ancestor that has the same name and is used in the same way: an
attribute and an operation without parameters can stand for each other, and operations agree in the
types of their parameters and in their return type.

Which members override others is found for all entities of a model before any of them is marked, so
that every entity is compared with its ancestors as they were.  The flags go back to the members by
position, and each entity gets its own (`Model.markOverrides_eq`).
-/

namespace ClassDiagram

/-- The attribute overrides a member of an ancestor: an attribute of that name, or an operation of
that name without parameters. -/
def Attribute.overrides (a : Attribute) (ancestor : Entity) : Bool :=
  ancestor.attributes.any (fun b => b.name = a.name) ||
    ancestor.operations.any fun o => o.name = a.name && o.parameters.isEmpty

/-- The operation overrides a member of an ancestor: an operation of that name with the same types
of parameters and result, or, if it has no parameters, an attribute of that name. -/
def Operation.overrides (o : Operation) (ancestor : Entity) : Bool :=
  ancestor.operations.any (fun p =>
      p.name = o.name && p.signature = o.signature && p.returnType = o.returnType) ||
    (o.parameters.isEmpty && ancestor.attributes.any fun a => a.name = o.name)

/-- Whether the members of an entity override a member of an ancestor. -/
structure OverrideFlags where
  /-- The flags of the attributes, in order. -/
  attributes : List Bool
  /-- The flags of the operations, in order. -/
  operations : List Bool

/-- Each element of a list changed by the value at its position in another list, and left as it is
if there is none. -/
def zipUpdate {α β : Type} (f : α → β → α) : List α → List β → List α
  | a :: as, b :: bs => f a b :: zipUpdate f as bs
  | as, _ => as

namespace Entity

/-- Which members of the entity override a member of one of the ancestors. -/
def overrideFlags (e : Entity) (ancestors : List Entity) : OverrideFlags where
  attributes := e.attributes.map fun a => ancestors.any a.overrides
  operations := e.operations.map fun o => ancestors.any o.overrides

/-- The entity with flags put on its members. -/
def withOverrideFlags (e : Entity) (flags : OverrideFlags) : Entity :=
  { e with
    attributes := zipUpdate (fun a flag => { a with isOverriding := flag }) e.attributes
      flags.attributes
    operations := zipUpdate (fun o flag => { o with isOverriding := flag }) e.operations
      flags.operations }

/-- The entity with each member marked that overrides a member of an ancestor, and no other. -/
def markOverrides (e : Entity) (ancestors : List Entity) : Entity :=
  { e with
    attributes := e.attributes.map fun a => { a with isOverriding := ancestors.any a.overrides }
    operations := e.operations.map fun o => { o with isOverriding := ancestors.any o.overrides } }

end Entity

namespace Model

/-- The flags of the members of every entity, in order.  The first entity whose superclasses form a
cycle is an error. -/
def overrideFlags (m : Model) : Except ModelError (List OverrideFlags) :=
  m.entities.mapM fun e => (m.ancestors e).map e.overrideFlags

/-- The model with the overriding members marked: the flags are found for all entities first, and
then put on them. -/
def markOverrides (m : Model) : Except ModelError Model :=
  m.overrideFlags.map fun flags =>
    m.withEntities (zipUpdate Entity.withOverrideFlags m.entities flags)

/-- The model with the overriding members marked, as a stage. -/
def analyzeOverrides (m : Model) : Traced Model := do
  Traced.enter .overrides
  Traced.ofExcept m.markOverrides

end Model

/-! ### Flags in order -/

theorem zipUpdate_map {α β : Type} (f : α → β → α) (g : α → β) (as : List α) :
    zipUpdate f as (as.map g) = as.map fun a => f a (g a) := by
  induction as with
  | nil => rfl
  | cons a as ih => rw [List.map_cons, zipUpdate, ih, List.map_cons]

/-- Values found for all elements first may as well be put on each of them at once. -/
theorem map_zipUpdate_mapM {ε α β : Type} (f : α → β → α) (g : α → Except ε β) (as : List α) :
    (as.mapM g).map (zipUpdate f as) = as.mapM fun a => (g a).map (f a) := by
  induction as with
  | nil => rfl
  | cons a as ih =>
    rw [List.mapM_cons, List.mapM_cons, ← ih]
    cases g a with
    | error e => rfl
    | ok b => cases as.mapM g <;> rfl

/-- The flags found for an entity fit its members. -/
theorem Entity.withOverrideFlags_overrideFlags (e : Entity) (ancestors : List Entity) :
    e.withOverrideFlags (e.overrideFlags ancestors) = e.markOverrides ancestors := by
  unfold withOverrideFlags overrideFlags markOverrides
  rw [zipUpdate_map, zipUpdate_map]

/-- Each entity gets the flags that are found for it. -/
theorem Model.markOverrides_eq (m : Model) :
    m.markOverrides =
      (m.entities.mapM fun e => (m.ancestors e).map e.markOverrides).map m.withEntities := by
  have hflags (e : Entity) : ((m.ancestors e).map e.overrideFlags).map e.withOverrideFlags =
      (m.ancestors e).map e.markOverrides := by
    cases m.ancestors e with
    | error err => rfl
    | ok as => exact congrArg Except.ok (e.withOverrideFlags_overrideFlags as)
  have hentities : m.overrideFlags.map (zipUpdate Entity.withOverrideFlags m.entities) =
      m.entities.mapM fun e => (m.ancestors e).map e.markOverrides := by
    rw [overrideFlags, map_zipUpdate_mapM]
    simp only [hflags]
  rw [← hentities, markOverrides]
  cases m.overrideFlags <;> rfl

end ClassDiagram
