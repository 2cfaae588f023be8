import ClassDiagram.Proofs.Model.Hierarchy
import ClassDiagram.Proofs.Model.Members
import ClassDiagram.Proofs.Model.Soundness
import ClassDiagram.Proofs.Stereotype.Member
import ClassDiagram.Proofs.TypeExpr.WellFormed

/-!
# Well-formed types in a model

The types of members are read from texts, or else made for the entity at an end of an association;
superclasses and mixins are entities alone.  An entity has a trimmed name, and as the final check
refuses blank names, every entity of a model is a well-formed type (`Completes.isNamed`).  Finishing
a model replaces references by others of the same names, so that all its types are well formed
(`wellTyped_of_ofDrawing`).
-/

namespace ClassDiagram

open Text Stereotype

/-! ### Types that have been written -/

/-- A type that has been written for a member: it is well formed and not empty. -/
structure TypeExpr.Written (t : TypeExpr) : Prop extends t.WellFormed where
  ne_empty : t ≠ .empty

namespace TypeExpr

theorem Written.mapLeaves {t : TypeExpr} {f : EntityRef → EntityRef} (h : t.Written)
    (hf : ∀ r, (f r).name = r.name) : (t.mapLeaves f).Written :=
  ⟨h.toWellFormed.mapLeaves hf, mapLeaves_eq_empty_iff.not.2 h.ne_empty⟩

theorem wellFormed_of_readAt {site : TypeSite} {text : String} {t : TypeExpr}
    (h : readAt site text = .ok t) : t.WellFormed :=
  wellFormed_of_parse (mapError_eq_ok_iff.1 h)

theorem written_of_readAt {site : TypeSite} {text : String} {t : TypeExpr}
    (hblank : blank text = false) (h : readAt site text = .ok t) : t.Written :=
  ⟨wellFormed_of_readAt h, ne_empty_of_parse hblank (mapError_eq_ok_iff.1 h)⟩

theorem written_of_readUnlessBlank {site : TypeSite} {text : String} {type : Option TypeExpr}
    (h : readUnlessBlank site text = .ok type) : ∀ t ∈ type, t.Written := by
  rintro t rfl
  obtain ⟨hblank, hread⟩ := readUnlessBlank_eq_ok_some h
  exact written_of_readAt hblank hread

theorem Written.generic_builtin {t : TypeExpr} (h : t.Written) (b : Builtin) :
    (TypeExpr.generic (.builtin b) [t]).Written := by
  refine ⟨⟨.generic rfl ?_ ?_, ?_⟩, by simp⟩
  · intro hempty
    exact h.ne_empty (List.singleton_inj.1 hempty)
  · rw [List.forall_mem_singleton]
    exact h.regular
  · simpa [leaves, leavesList] using h.named

/-- As many values of a type as a multiplicity says are a written type if one of them is. -/
theorem Written.ofMultiplicity {t : TypeExpr} (h : t.Written) (multiplicity : String) :
    (TypeExpr.ofMultiplicity multiplicity t).Written := by
  unfold TypeExpr.ofMultiplicity
  dsimp only
  split_ifs
  · exact h.generic_builtin .option
  · exact h.generic_builtin .seq
  · exact h

end TypeExpr

/-! ### Members -/

theorem Attribute.written_of_read {owner : String} {mutability : Option Mutability} {record : Node}
    {a : Attribute} (h : (Attribute.read owner mutability record).result = .ok a) :
    ∀ t ∈ a.type, t.Written := by
  simp only [Attribute.read, Traced.result_bind_eq_ok_iff] at h
  obtain ⟨name, -, flags, -, text, -, type, htype, visibility, -, default, -, isClassScope, -,
    h⟩ := h
  cases h
  exact TypeExpr.written_of_readUnlessBlank htype

/-- A type is declared in a role only if it is not blank. -/
theorem Stereotype.blank_eq_false_of_splitRoleType {role text : String}
    (h : (splitRoleType role).2 = some text) : blank text = false := by
  obtain ⟨name, hsplit⟩ : ∃ name, splitRoleType role = (name, some text) := ⟨_, Prod.ext rfl h⟩
  rcases splitRoleType_eq_iff.1 hsplit with ⟨-, -, htype⟩ | - | -
  rw [isBlank_eq_false_iff] at htype
  rw [blank, isBlank_eq_false_iff, String.toList_ofList, trim_trim]
  exact htype

theorem AssociationEnd.written_of_toAttribute {edge : Node} {e : AssociationEnd}
    {owner target : Entity} {a : Attribute} (htarget : target.reference.IsNamed)
    (h : (e.toAttribute edge owner target).result = .ok a) : ∀ t ∈ a.type, t.Written := by
  obtain ⟨-, flags, type, -, htype, rfl⟩ := toAttribute_eq_ok_iff.1 h
  intro t ht
  obtain rfl : type = t := Option.some.inj ht
  unfold attributeType at htype
  split at htype
  · next text hdeclared =>
    exact TypeExpr.written_of_readAt (blank_eq_false_of_splitRoleType hdeclared) htype
  · -- Without a declared type, the type is made for the entity at the end.
    cases htype
    have hwritten : (TypeExpr.user target.reference).Written :=
      ⟨TypeExpr.wellFormed_user htarget, by simp⟩
    exact hwritten.ofMultiplicity e.multiplicity

/-- The types of the parameters of an operation are well formed, and its result is a written
type. -/
structure Operation.WellTyped (o : Operation) : Prop where
  parameters : ∀ p ∈ o.parameters, p.type.WellFormed
  returnType : ∀ t ∈ o.returnType, t.Written

theorem Operation.wellTyped_of_read {owner : String} {record : Node} {o : Operation}
    (h : Operation.read owner record = .ok o) : o.WellTyped := by
  obtain ⟨hparameters, site, text, hreturn⟩ := Operation.exists_of_read h
  refine ⟨?_, TypeExpr.written_of_readUnlessBlank hreturn⟩
  intro p hp
  obtain ⟨site, text, htype⟩ := hparameters p hp
  exact TypeExpr.wellFormed_of_readAt htype

/-! ### Entities -/

/-- All types in an entity are well formed, and none that is written for an attribute or a result is
empty. -/
structure Entity.WellTyped (e : Entity) : Prop where
  attributes : ∀ a ∈ e.attributes, ∀ t ∈ a.type, t.Written
  operations : ∀ o ∈ e.operations, o.WellTyped
  superclass : ∀ t ∈ e.superclass, t.WellFormed
  mixins : ∀ t ∈ e.mixins, t.WellFormed

namespace Model

variable {drawing : Node} {imports : ImportTable} {d m : Model} {r : EdgeReading}

/-- Finishing keeps written types, as it changes packages only. -/
theorem FinishedAttribute.written {a b : Attribute} (h : m.FinishedAttribute b a)
    (hb : ∀ t ∈ b.type, t.Written) : ∀ t ∈ a.type, t.Written := by
  rw [h]
  intro t ht
  obtain ⟨s, hs, rfl⟩ := Option.map_eq_some_iff.1 ht
  exact (hb s hs).mapLeaves m.name_qualified

theorem FinishedOperation.wellTyped {o p : Operation} (h : m.FinishedOperation p o)
    (hp : p.WellTyped) : o.WellTyped := by
  rw [h]
  constructor
  · intro q hq
    obtain ⟨q', hq', rfl⟩ := List.mem_map.1 hq
    exact (hp.parameters q' hq').mapLeaves m.name_qualified
  · intro t ht
    obtain ⟨s, hs, rfl⟩ := Option.map_eq_some_iff.1 ht
    exact (hp.returnType s hs).mapLeaves m.name_qualified

namespace Completes

variable (h : d.Completes drawing r m) (hd : (entitiesOfDrawing drawing imports).result = .ok d)

include h hd

/-- Names are trimmed when they are read, and blank ones do not pass the final check. -/
theorem isNamed (hdiagnostics : m.diagnostics = []) {e : Entity} (he : e ∈ m.entities) :
    e.reference.IsNamed := by
  obtain ⟨i, hi⟩ := List.mem_iff_getElem?.1 he
  obtain ⟨c, part, hpart⟩ := h.exists_isPart_of_getElem? hd hi
  obtain ⟨text, -, hreference⟩ := hpart.reference_eq
  have hnamed := (diagnostics_eq_nil_iff.1 hdiagnostics).1 e he
  have hblank : blank e.reference.name = false := (Entity.diagnostics_eq_nil_iff.1 hnamed).1
  constructor
  · intro hempty
    rw [hempty] at hblank
    exact absurd hblank (by decide)
  · rw [hreference]
    show trimmed (trimmed text) = trimmed text
    rw [trimmed, toList_trimmed, trim_trim, trimmed]

end Completes

/-- All types in a model are well formed, those read from texts and those made from entities, and
qualifying their references keeps them so. -/
theorem wellTyped_of_ofDrawing (h : (ofDrawing drawing imports).result = .ok m) {e : Entity}
    (he : e ∈ m.entities) : e.WellTyped := by
  obtain ⟨d, r, hd, hm, hdiagnostics⟩ := exists_completion_of_ofDrawing h
  obtain ⟨i, hi⟩ := List.mem_iff_getElem?.1 he
  obtain ⟨c, part, hpart⟩ := hm.exists_isPart_of_getElem? hd hi
  have hnamed : ∀ p ∈ m.entities, p.reference.IsNamed := fun p hp => hm.isNamed hd hdiagnostics hp
  have htypes : ∀ j t, m.typeAt? j = some t → t.WellFormed := by
    intro j t ht
    obtain ⟨p, hp, rfl⟩ := exists_mem_of_typeAt? ht
    exact TypeExpr.wellFormed_user (hnamed p hp)
  constructor
  · obtain ⟨owner, drawn, added, -, hattributes, hdrawn, hadded⟩ := hpart.attributes
    intro a ha
    rw [hattributes, List.mem_append] at ha
    rcases ha with ha | ha
    · obtain ⟨record, -, b, hb, hab⟩ := exists_of_forall₂_right hdrawn ha
      exact hab.written (Attribute.written_of_read hb)
    · obtain ⟨p, -, x, own, target, b, -, -, htarget, hb, hab⟩ := exists_of_forall₂_right hadded ha
      exact hab.written (x.written_of_toAttribute (hnamed target (List.mem_of_getElem? htarget)) hb)
  · intro o ho
    obtain ⟨record, -, p, hp, hpo⟩ := exists_of_forall₂_right hpart.operations ho
    exact hpo.wellTyped (Operation.wellTyped_of_read hp)
  · intro t ht
    have ht : e.superclass = some t := ht
    rw [hm.superclass_eq hd hi] at ht
    obtain ⟨x, -, hx⟩ := Option.bind_eq_some_iff.1 ht
    exact htypes _ _ hx
  · intro t ht
    rw [hm.mixins_eq hd hi] at ht
    obtain ⟨x, -, hx⟩ := List.mem_filterMap.1 ht
    exact htypes _ _ hx

/-! ### A drawing with types -/

/-- The record of a member or a parameter with a type. -/
def typedRecord (kind name type : String) : Node :=
  { Node.composite kind with
    children := [
      .named "name" (.ofString name),
      .named "type" (.ofString type),
      .named "visibility" (.ofCode 0),
      .named "class_scope" (.ofBool false)] }

/-- Orders with a price, which is found from their lines, and with any number of lines. -/
def pricedOrders : Node :=
  { Node.ofKind "diagram" with
    children := [
      ((classObject "O0" " Order ").addChild (.namedRecords "attributes"
        [typedRecord "umlattribute" "price" "(Seq[ Line], ) => Money[ ]"])).addChild
        (.namedRecords "operations"
          [(typedRecord "umloperation" "find" "Option[Line]").addChild
            (.namedRecords "parameters" [typedRecord "umlparameter" "key" " "])]),
      classObject "O1" "Line",
      { placement with
        children := .named "multipicity_b" (.ofString "0..*") :: placement.children },
      edgeBetween "UML - Generalization" "O3" "O1" "O0",
      edgeBetween "UML - Realizes" "O4" "O1" "O0"] }

/-- The type of the price: a function whose second input is empty. -/
def priceType : TypeExpr :=
  .function [.seqOf (.user ⟨"Line", ""⟩), .empty] (.generic (.user ⟨"Money", ""⟩) [])

theorem wellTyped_of_pricedOrders :
    ∃ m e, (ofDrawing pricedOrders .empty).result = .ok m ∧ e ∈ m.entities ∧ e.WellTyped ∧
      e.attributes.map Attribute.type = [some priceType, some (.seqOf (.user ⟨"Line", ""⟩))] ∧
      e.operations.map Operation.signature = [[.empty]] ∧
      e.operations.map Operation.returnType = [some (.optionOf (.user ⟨"Line", ""⟩))] := by
  have hmodel : (ofDrawing pricedOrders .empty).result.toOption.map (fun m => m.entities.map fun e =>
      (e.attributes.map Attribute.type, e.operations.map Operation.signature,
        e.operations.map Operation.returnType)) =
      some [([some priceType, some (.seqOf (.user ⟨"Line", ""⟩))], [[.empty]],
        [some (.optionOf (.user ⟨"Line", ""⟩))]), ([], [], [])] := by decide +kernel
  obtain ⟨m, hm, hentities⟩ := exists_eq_ok_of_toOption_map hmodel
  obtain ⟨e, he, hfirst⟩ := exists_getElem?_of_map_eq hentities (i := 0) rfl
  simp only [Prod.mk.injEq] at hfirst
  have he := List.mem_of_getElem? he
  exact ⟨m, e, hm, he, wellTyped_of_ofDrawing hm he, hfirst⟩

end Model

end ClassDiagram
