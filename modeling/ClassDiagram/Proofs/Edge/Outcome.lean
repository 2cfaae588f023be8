import ClassDiagram.Proofs.Edge.Association
import ClassDiagram.Proofs.Edge.Hierarchy

/-!
# What all edges make of the entities

The four stages that read edges change different parts of an entity, and none of them changes what
edges are attached by.  So each of them may be taken to read the model before all edges
(`Model.Reads`), and together they are one edit by position (`exists_reading_of_resolveEdges`).
-/

namespace ClassDiagram

/-! ### Associations against another stage -/

/-- Of the two entities, an attribute is made from their references and the mutability of its
owner only. -/
theorem AssociationEnd.toAttribute_congr {owner owner' target target' : Entity}
    (hr : owner.reference = owner'.reference) (hm : owner.mutability = owner'.mutability)
    (ht : target.reference = target'.reference) (e : AssociationEnd) (edge : Node) :
    e.toAttribute edge owner target = e.toAttribute edge owner' target' := by
  unfold toAttribute
  have hname : owner.name = owner'.name := by rw [Entity.name, hr, Entity.name]
  rw [hr, hm, ht, hname]

theorem foldl_addAttributeAt (additions : List AttributeAddition) (es : List Entity) :
    additions.foldl addAttributeAt es =
      es.mapIdx fun i e => e.addAttributes (additionsTo i additions) := by
  apply List.ext_getElem?
  intro i
  rw [getElem?_foldl_addAttributeAt, List.getElem?_mapIdx]

namespace Model

variable {drawing : Node} {m n : Model} {f : Nat → Entity → Entity}

/-- An edit that keeps what edges look at keeps what associations add. -/
theorem adds_editEntities (hf : KeepsHead f) : (m.editEntities f).Adds = m.Adds := by
  funext p addition
  unfold Adds
  simp only [endpoint_editEntities hf]
  have hadd : ∀ own opposite, (m.editEntities f).associationEndAddition p.1 p.2 own opposite =
      m.associationEndAddition p.1 p.2 own opposite := by
    intro own opposite
    unfold associationEndAddition
    rw [getElem?_editEntities, getElem?_editEntities]
    cases m.entities[opposite]? with
    | none => rfl
    | some owner =>
      cases m.entities[own]? with
      | none => rfl
      | some target =>
        have hattribute := fun e : AssociationEnd => e.toAttribute_congr
          (hf.reference_eq opposite owner) (hf.mutability_eq opposite owner)
          (hf.reference_eq own target) p.1
        simp only [Option.map_some, hattribute]
  simp only [hadd]

end Model

/-! ### All edges at once -/

/-- What the edges of a drawing say, with the positions that they are attached to. -/
structure EdgeReading where
  generalizations : List Endpoints
  realizations : List Endpoints
  dependencies : List Endpoints
  additions : List AttributeAddition

/-- The entity at a position as all edges leave it. -/
def EdgeReading.applyAt (r : EdgeReading) (types : Nat → Option TypeExpr) (i : Nat) (e : Entity) :
    Entity :=
  (companionAt r.dependencies i
    (mixInAt types r.realizations i (extendAt types r.generalizations i e))).addAttributes
      (additionsTo i r.additions)

/-- No edge makes anything else of an object. -/
theorem EdgeReading.kind_applyAt {r : EdgeReading} {types : Nat → Option TypeExpr} {i : Nat}
    {e : Entity} (h : e.kind = .object) : (r.applyAt types i e).kind = .object := by
  show (if _ then EntityKind.object else e.kind) = _
  rw [h, ite_self]

namespace Model

variable {drawing : Node} {m n : Model}

/-- The edges of a drawing, read in the model `m`. -/
structure Reads (m : Model) (drawing : Node) (r : EdgeReading) : Prop where
  generalizations : List.Forall₂ (fun edge x => m.reversedEndpoints edge = .ok x)
    (drawing.query "object" "UML - Generalization") r.generalizations
  sources_nodup : (r.generalizations.map Endpoints.source).Nodup
  free : ∀ x ∈ r.generalizations, x.IsFree m.entities
  realizations : ∃ ends, List.Forall₂ (fun edge x => (m.realizationEnds edge).result = .ok x)
    (drawing.query "object" "UML - Realizes") ends ∧ r.realizations = ends.filterMap id
  dependencies : ∃ ends, List.Forall₂ (fun edge x => (m.dependencyEnds edge).result = .ok x)
    (drawing.query "object" "UML - Dependency") ends ∧ r.dependencies = ends.filterMap id
  associations : ∃ additions, List.Forall₂ m.Adds (associationEnds drawing) additions ∧
    r.additions = additions.flatMap Option.toList

theorem exists_reading_of_resolveEdges (h : (m.resolveEdges drawing).result = .ok n) :
    ∃ r, m.Reads drawing r ∧ n = m.editEntities (r.applyAt m.typeAt?) := by
  obtain ⟨m₁, m₂, m₃, h₁, h₂, h₃, h₄⟩ := resolveEdges_eq_ok_iff.1 h
  obtain ⟨generalizations, hgen, hnodup, hfree, rfl⟩ := resolveGeneralizations_eq_ok_iff.1 h₁
  obtain ⟨realizations, hreal, rfl⟩ := resolveRealizations_eq_ok_iff.1 h₂
  obtain ⟨dependencies, hdep, rfl⟩ := resolveDependencies_eq_ok_iff.1 h₃
  obtain ⟨additions, hadds, rfl⟩ := resolveAssociations_eq_ok_iff.1 h₄
  -- The stages find the ends of their edges as they stand before all of them.
  have hfirst := keepsHead_extendAt m.typeAt? generalizations
  rw [typeAt?_editEntities hfirst] at hdep hadds ⊢
  have hsecond := keepsHead_mixInAt m.typeAt? (realizations.filterMap id)
  have hthird := keepsHead_companionAt (dependencies.filterMap id)
  simp only [realizationEnds, reversedEndpoints_editEntities hfirst] at hreal
  simp only [dependencyEnds, endpoints_editEntities hsecond, endpoints_editEntities hfirst] at hdep
  rw [adds_editEntities hthird, adds_editEntities hsecond, adds_editEntities hfirst] at hadds
  refine ⟨⟨generalizations, realizations.filterMap id, dependencies.filterMap id,
    additions.flatMap Option.toList⟩, ⟨hgen, hnodup, hfree, ⟨_, hreal, rfl⟩, ⟨_, hdep, rfl⟩,
    ⟨_, hadds, rfl⟩⟩, ?_⟩
  rw [addAttributes, foldl_addAttributeAt, editEntities_editEntities, editEntities_editEntities]
  exact editEntities_editEntities

end Model

end ClassDiagram
