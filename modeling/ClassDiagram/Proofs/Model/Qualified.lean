import ClassDiagram.Proofs.Model.Frame
import ClassDiagram.Proofs.TypeExpr.Leaves

/-!
# References in a finished model

Qualifying the references of a model looks at names only: a reference without a package gets the
package of the first entity of its name, or else the one that the import table knows
(`Model.qualified`).  `forall₂_finished` says what becomes of an entity after its edges have been
read: the references in the types of its members are qualified, its overriding members are marked,
and everything else stays.
-/

namespace ClassDiagram

/-! ### Types of members -/

section MapTypes

variable (f g : EntityRef → EntityRef)

theorem Attribute.mapTypes_mapTypes (a : Attribute) :
    (a.mapTypes f).mapTypes g = a.mapTypes fun r => g (f r) := by
  obtain ⟨name, type, visibility, isVal, default, isLazy, isOverriding, isClassScope⟩ := a
  cases type <;> simp [mapTypes, TypeExpr.mapLeaves_mapLeaves]

theorem Parameter.mapTypes_mapTypes (p : Parameter) :
    (p.mapTypes f).mapTypes g = p.mapTypes fun r => g (f r) := by
  simp [mapTypes, TypeExpr.mapLeaves_mapLeaves]

theorem Operation.mapTypes_mapTypes (o : Operation) :
    (o.mapTypes f).mapTypes g = o.mapTypes fun r => g (f r) := by
  obtain ⟨name, visibility, parameters, returnType, isOverriding, isClassScope⟩ := o
  cases returnType <;>
    simp [mapTypes, TypeExpr.mapLeaves_mapLeaves, Parameter.mapTypes_mapTypes, Function.comp_def]

theorem Entity.mapTypes_mapTypes (e : Entity) :
    (e.mapTypes f).mapTypes g = e.mapTypes fun r => g (f r) := by
  simp [mapTypes, Attribute.mapTypes_mapTypes, Operation.mapTypes_mapTypes, Function.comp_def]

end MapTypes

namespace Model

variable {m n : Model}

/-! ### Qualified references -/

/-- The package for a name that stands without one: that of the first entity of the name, or else
that of the import table; empty if neither has one. -/
def packageFor (m : Model) (name : String) : String :=
  let drawn := (m.entities.find? fun e => e.name = name).map Entity.package
  ((drawn.filter (· ≠ "")).or (ImportTable.package? m.imports name)).getD ""

/-- A reference as it stands in a finished model. -/
def qualified (m : Model) (r : EntityRef) : EntityRef :=
  if r.isQualified then r else r.withPackage (m.packageFor r.name)

theorem name_qualified (m : Model) (r : EntityRef) : (m.qualified r).name = r.name := by
  unfold qualified
  split <;> rfl

theorem package_qualified (m : Model) (r : EntityRef) :
    (m.qualified r).package = if r.package ≠ "" then r.package else m.packageFor r.name := by
  simp only [qualified, EntityRef.isQualified, decide_eq_true_eq]
  split <;> rfl

/-- The two passes over the references of a model have a common outcome. -/
theorem resolveImported_resolveDrawn (m : Model) (r : EntityRef) :
    (r.resolveDrawn m.entities).resolveImported m.imports = m.qualified r := by
  obtain ⟨name, package⟩ := r
  by_cases hq : package = ""
  · subst hq
    -- Only a drawn entity with a package keeps the import table from being asked.
    cases hfind : m.entities.find? fun e => e.name = name with
    | none =>
      cases himport : ImportTable.package? m.imports name <;>
        simp [EntityRef.resolveDrawn, EntityRef.resolveImported, qualified, packageFor,
          EntityRef.isQualified, EntityRef.withPackage, hfind, himport]
    | some e =>
      by_cases hp : e.package = ""
      · cases himport : ImportTable.package? m.imports name <;>
          simp [EntityRef.resolveDrawn, EntityRef.resolveImported, qualified, packageFor,
            EntityRef.isQualified, EntityRef.withPackage, Option.filter, hfind, himport, hp]
      · simp [EntityRef.resolveDrawn, EntityRef.resolveImported, qualified, packageFor,
          EntityRef.isQualified, EntityRef.withPackage, Option.filter, hfind, hp]
  · simp [EntityRef.resolveDrawn, EntityRef.resolveImported, qualified, EntityRef.isQualified, hq]

theorem entities_qualifyReferences (m : Model) :
    m.qualifyReferences.entities = m.entities.map (Entity.mapTypes m.qualified) := by
  show (m.entities.map _).map _ = _
  rw [List.map_map]
  refine List.map_congr_left fun e _ => ?_
  rw [Function.comp_apply, Entity.mapTypes_mapTypes]
  simp only [resolveImported_resolveDrawn]

theorem qualifyReferences_eq_mapTypes (m : Model) :
    m.qualifyReferences = m.mapTypes m.qualified :=
  ext_parts rfl (entities_qualifyReferences m) rfl

/-- Only names, packages and the import table matter for how references are qualified. -/
theorem qualified_congr (hr : m.entities.map Entity.reference = n.entities.map Entity.reference)
    (hi : m.imports = n.imports) : m.qualified = n.qualified := by
  have hfind : ∀ (es : List Entity) (name : String),
      (es.find? fun e => e.name = name).map Entity.package =
        ((es.map Entity.reference).find? fun r => r.name = name).map EntityRef.package := by
    intro es name
    rw [List.find?_map, Option.map_map]
    rfl
  funext r
  simp only [qualified, packageFor, hfind, hr, hi]

/-! ### Entities of a finished model -/

/-- The entity `e` as it stands in the finished model `m`. -/
def Finished (m : Model) (e e' : Entity) : Prop :=
  ∃ ancestors, e' = (e.mapTypes m.qualified).markOverrides ancestors

theorem Finished.id_eq {e e' : Entity} (h : m.Finished e e') : e.id = e'.id := by
  obtain ⟨ancestors, rfl⟩ := h
  rfl

theorem Finished.reference_eq {e e' : Entity} (h : m.Finished e e') :
    e.reference = e'.reference := by
  obtain ⟨ancestors, rfl⟩ := h
  rfl

theorem Finished.geometry_eq {e e' : Entity} (h : m.Finished e e') :
    e.geometry = e'.geometry := by
  obtain ⟨ancestors, rfl⟩ := h
  rfl

theorem Finished.kind_eq {e e' : Entity} (h : m.Finished e e') : e.kind = e'.kind := by
  obtain ⟨ancestors, rfl⟩ := h
  rfl

theorem Finished.isMutable_eq {e e' : Entity} (h : m.Finished e e') :
    e.isMutable = e'.isMutable := by
  obtain ⟨ancestors, rfl⟩ := h
  rfl

theorem Finished.isImmutable_eq {e e' : Entity} (h : m.Finished e e') :
    e.isImmutable = e'.isImmutable := by
  obtain ⟨ancestors, rfl⟩ := h
  rfl

theorem Finished.hasCompanion_eq {e e' : Entity} (h : m.Finished e e') :
    e.hasCompanion = e'.hasCompanion := by
  obtain ⟨ancestors, rfl⟩ := h
  rfl

theorem Finished.mutability_eq {e e' : Entity} (h : m.Finished e e') :
    e.mutability = e'.mutability := by
  rw [Entity.mutability, h.isMutable_eq, h.isImmutable_eq, Entity.mutability]

/-- The attribute `a` of the model is `b`, finished: its type is qualified, and it may be marked. -/
def FinishedAttribute (m : Model) (b a : Attribute) : Prop :=
  a = { b.mapTypes m.qualified with isOverriding := a.isOverriding }

/-- The operation `o` of the model is `p`, finished. -/
def FinishedOperation (m : Model) (p o : Operation) : Prop :=
  o = { p.mapTypes m.qualified with isOverriding := o.isOverriding }

/-- The attributes of an entity are finished one by one. -/
theorem Finished.exists_attributes {e e' : Entity} (h : m.Finished e e') :
    ∃ f : Attribute → Attribute, e'.attributes = e.attributes.map f ∧
      ∀ a, m.FinishedAttribute a (f a) := by
  obtain ⟨ancestors, rfl⟩ := h
  refine ⟨fun a => { a.mapTypes m.qualified with
    isOverriding := ancestors.any (a.mapTypes m.qualified).overrides }, ?_, fun a => rfl⟩
  show (e.attributes.map _).map _ = _
  rw [List.map_map]
  rfl

/-- The operations of an entity are finished one by one. -/
theorem Finished.exists_operations {e e' : Entity} (h : m.Finished e e') :
    ∃ f : Operation → Operation, e'.operations = e.operations.map f ∧
      ∀ o, m.FinishedOperation o (f o) := by
  obtain ⟨ancestors, rfl⟩ := h
  refine ⟨fun o => { o.mapTypes m.qualified with
    isOverriding := ancestors.any (o.mapTypes m.qualified).overrides }, ?_, fun o => rfl⟩
  show (e.operations.map _).map _ = _
  rw [List.map_map]
  rfl

/-- The attributes keep their order and their names, and their types are qualified. -/
theorem Finished.attributes {e e' : Entity} (h : m.Finished e e') :
    ∃ f : Attribute → Attribute, e'.attributes = e.attributes.map f ∧
      ∀ a, (f a).name = a.name ∧ (f a).type = a.type.map (TypeExpr.mapLeaves m.qualified) := by
  obtain ⟨f, hattributes, hf⟩ := h.exists_attributes
  refine ⟨f, hattributes, fun a => ⟨?_, ?_⟩⟩
  · rw [hf a]
    rfl
  · rw [hf a]
    rfl

/-- After the edges of a drawing have been read, its entities are finished one by one. -/
theorem forall₂_finished (h : m.qualifyReferences.markOverrides = .ok n) :
    List.Forall₂ n.Finished m.entities n.entities := by
  rw [markOverrides_eq] at h
  obtain ⟨es, hes, rfl⟩ := map_eq_ok_iff.1 h
  have hall : List.Forall₂ m.Finished m.entities es := by
    rw [mapM_eq_ok_iff, entities_qualifyReferences, List.forall₂_map_left_iff] at hes
    refine hes.imp ?_
    intro e e' he
    obtain ⟨ancestors, -, rfl⟩ := map_eq_ok_iff.1 he
    exact ⟨ancestors, rfl⟩
  -- No reference of an entity changes, so that the finished model qualifies in the same way.
  have hqualified : m.qualified = (m.qualifyReferences.withEntities es).qualified :=
    qualified_congr (map_eq_of_forall₂ hall fun _ _ he => he.reference_eq) rfl
  refine hall.imp ?_
  rintro e e' ⟨ancestors, rfl⟩
  exact ⟨ancestors, by rw [hqualified]⟩

end Model

end ClassDiagram
