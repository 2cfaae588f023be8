import ClassDiagram.Proofs.Model.Members
import ClassDiagram.Proofs.Model.Soundness
import ClassDiagram.Proofs.Stereotype.Member

/-!
# Bindings of attributes

How an attribute is bound is decided when it is read, by its stereotype and the mutability of its
owner (`Stereotype.suits_of_bindMember`).  An attribute comes from the record of a class object or
from an end of an association; it may move to a companion, which is neither mutable nor immutable,
and no later stage binds it anew.  So the attributes of every entity of a model suit its mutability
(`respectsMutability_of_ofDrawing`).
-/

namespace ClassDiagram

open Stereotype

namespace Stereotype

/-- The attributes of an entity of this mutability can be bound in this way. -/
structure MemberFlags.Suits (flags : MemberFlags) (mutability : Option Mutability) : Prop where
  of_mutable : mutability = some .mutable → flags.isVal = false ∧ flags.isLazy = false
  of_immutable : mutability = some .immutable → flags.isVal = true
  of_isLazy : flags.isLazy = true → flags.isVal = true

/-- What suits an entity of some mutability suits an entity of none. -/
theorem MemberFlags.Suits.none {flags : MemberFlags} {mutability : Option Mutability}
    (h : flags.Suits mutability) : flags.Suits none :=
  ⟨by simp, by simp, h.of_isLazy⟩

/-- What is bound against the mutability of an entity suits it. -/
theorem BindsAs.suits {stereotype : Option String} {mutability : Option Mutability}
    {flags : MemberFlags} (h : BindsAs stereotype mutability flags) : flags.Suits mutability := by
  refine ⟨fun hm => ?_, fun hm => (h.of_immutable hm).1, fun hlazy => ?_⟩
  · obtain ⟨hval, -, hlazy⟩ := h.of_mutable hm
    exact ⟨hval, eq_false_of_ne_true fun hflag => hlazy (h.isLazy_iff.1 hflag)⟩
  · have hstereotype := h.isLazy_iff.1 hlazy
    cases hm : mutability with
    | none => exact (h.isVal_iff hm).2 (by simp [hstereotype])
    | some mutability =>
      cases mutability with
      | mutable => exact absurd hstereotype (h.of_mutable hm).2.2
      | immutable => exact (h.of_immutable hm).1

theorem suits_of_bindMember {owner name : String} {mutability : Option Mutability}
    {stereotype : Option String} {flags : MemberFlags}
    (h : (bindMember owner mutability name stereotype).result = .ok flags) :
    flags.Suits mutability :=
  (bindMember_eq_ok_iff.1 h).suits

end Stereotype

/-! ### Where attributes come from -/

/-- How the attribute is bound. -/
def Attribute.flags (a : Attribute) : MemberFlags := ⟨a.isVal, a.isLazy⟩

theorem Attribute.suits_of_read {owner : String} {mutability : Option Mutability} {record : Node}
    {a : Attribute} (h : (Attribute.read owner mutability record).result = .ok a) :
    a.flags.Suits mutability := by
  simp only [Attribute.read, Traced.result_bind_eq_ok_iff] at h
  obtain ⟨name, -, flags, hflags, text, -, type, -, visibility, -, default, -, isClassScope, -,
    h⟩ := h
  cases h
  exact suits_of_bindMember hflags

theorem AssociationEnd.suits_of_toAttribute {edge : Node} {e : AssociationEnd}
    {owner target : Entity} {a : Attribute}
    (h : (e.toAttribute edge owner target).result = .ok a) : a.flags.Suits owner.mutability := by
  obtain ⟨-, flags, type, hflags, -, rfl⟩ := toAttribute_eq_ok_iff.1 h
  exact suits_of_bindMember hflags

/-- A part of an entity has the mutability of the entity or none. -/
theorem Entity.suits_mutability_of {flags : MemberFlags} {w : Entity}
    (h : flags.Suits w.mutability) (part : Part) : flags.Suits (part.of w).mutability := by
  cases part with
  | companion => exact h.none
  | whole | instances => exact h

namespace Model

variable {drawing : Node} {imports : ImportTable} {d m : Model} {r : EdgeReading}

theorem FinishedAttribute.flags_eq {a b : Attribute} (h : m.FinishedAttribute b a) :
    a.flags = b.flags := by
  rw [h]
  rfl

/-- Every attribute of the model suits the mutability of its entity. -/
theorem Completes.suits (h : d.Completes drawing r m)
    (hd : (entitiesOfDrawing drawing imports).result = .ok d) {e : Entity} (he : e ∈ m.entities)
    {a : Attribute} (ha : a ∈ e.attributes) : a.flags.Suits e.mutability := by
  obtain ⟨i, hi⟩ := List.mem_iff_getElem?.1 he
  obtain ⟨_, he₀, hfinished⟩ := h.exists_drawn hi
  obtain ⟨⟨c, part⟩, -, w, hw, -, rfl⟩ :=
    exists_getElem?_of_forall₂ (forall₂_entityPlaces hd).flip he₀
  have hmutability : (part.of w).mutability = e.mutability := hfinished.mutability_eq
  obtain ⟨drawn, added, hattributes, hdrawn, hadded⟩ := h.exists_attributes hw he₀ hfinished
  rw [hattributes, List.mem_append] at ha
  rcases ha with ha | ha
  · obtain ⟨record, -, b, hb, hab⟩ := exists_of_forall₂_right hdrawn ha
    rw [hab.flags_eq, ← hmutability]
    exact Entity.suits_mutability_of (Attribute.suits_of_read hb) part
  · -- An end of an association binds its attribute for the entity that gets it.
    obtain ⟨p, -, x, own, target, b, -, -, -, hb, hab⟩ := exists_of_forall₂_right hadded ha
    rw [hab.flags_eq]
    exact x.suits_of_toAttribute hb

end Model

/-! ### Mutability -/

theorem Entity.mutability_of_isMutable {e : Entity}
    (h : ¬ (e.isMutable = true ∧ e.isImmutable = true)) (hm : e.isMutable = true) :
    e.mutability = some .mutable := by
  rw [not_and, Bool.not_eq_true] at h
  rw [mutability, hm, h hm]

theorem Entity.mutability_of_isImmutable {e : Entity}
    (h : ¬ (e.isMutable = true ∧ e.isImmutable = true)) (hi : e.isImmutable = true) :
    e.mutability = some .immutable := by
  rw [not_and', Bool.not_eq_true] at h
  rw [mutability, hi, h hi]

/-- All attributes of a mutable entity can be assigned again and none of an immutable one can; what
is computed on first use is never assigned again. -/
structure Entity.RespectsMutability (e : Entity) : Prop where
  of_isMutable : e.isMutable = true → ∀ a ∈ e.attributes, a.isVal = false ∧ a.isLazy = false
  of_isImmutable : e.isImmutable = true → ∀ a ∈ e.attributes, a.isVal = true
  of_isLazy : ∀ a ∈ e.attributes, a.isLazy = true → a.isVal = true

namespace Model

variable {drawing : Node} {imports : ImportTable} {d m : Model} {r : EdgeReading}

/-- The attributes of records and those that associations add respect the mutability of their entity
alike. -/
theorem respectsMutability_of_ofDrawing (h : (ofDrawing drawing imports).result = .ok m)
    {e : Entity} (he : e ∈ m.entities) : e.RespectsMutability := by
  obtain ⟨d, r, hd, hm, -⟩ := exists_completion_of_ofDrawing h
  have hone := hm.not_isMutable_and_isImmutable hd he
  have hsuits : ∀ a ∈ e.attributes, a.flags.Suits e.mutability := fun a ha => hm.suits hd he ha
  constructor
  · intro hmutable a ha
    exact (hsuits a ha).of_mutable (Entity.mutability_of_isMutable hone hmutable)
  · intro himmutable a ha
    exact (hsuits a ha).of_immutable (Entity.mutability_of_isImmutable hone himmutable)
  · intro a ha
    exact (hsuits a ha).of_isLazy

/-! ### A drawing with mutable and immutable entities -/

/-- A class object with a stereotype and attributes, the first of which belongs to the class. -/
def boundClass (id name stereotype own : String) (others : List String) : Node :=
  ((classObject id name).addChild (.named "stereotype" (.ofString stereotype))).addChild
    (.namedRecords "attributes"
      (attributeRecord own true :: others.map fun other => attributeRecord other false))

/-- Mutable orders that are counted, and immutable instants with a text. -/
def boundOrders : Node :=
  { Node.ofKind "diagram" with
    children := [
      boundClass "O0" "Order" "mutable" "<<var>> count" ["number"],
      boundClass "O1" "Instant" "immutable" "<<lazy>> epoch" ["<<lazy>> text", "<<val>> second"],
      placement] }

theorem respectsMutability_of_boundOrders :
    ∃ m e, (ofDrawing boundOrders .empty).result = .ok m ∧ e ∈ m.entities ∧ e.isMutable = true ∧
      e.RespectsMutability ∧
      m.entities.map (fun e => (e.isMutable, e.isImmutable, e.attributes.map Attribute.flags)) =
        [(true, false, [⟨false, false⟩, ⟨false, false⟩]), (false, false, [⟨false, false⟩]),
          (false, true, [⟨true, true⟩, ⟨true, false⟩]), (false, false, [⟨true, true⟩])] := by
  have hmodel : (ofDrawing boundOrders .empty).result.toOption.map
      (fun m => m.entities.map fun e =>
        (e.isMutable, e.isImmutable, e.attributes.map Attribute.flags)) =
      some [(true, false, [⟨false, false⟩, ⟨false, false⟩]), (false, false, [⟨false, false⟩]),
          (false, true, [⟨true, true⟩, ⟨true, false⟩]), (false, false, [⟨true, true⟩])] := by
    decide +kernel
  obtain ⟨m, hm, hentities⟩ := exists_eq_ok_of_toOption_map hmodel
  obtain ⟨e, he, hfirst⟩ := exists_getElem?_of_map_eq hentities (i := 0) rfl
  have he := List.mem_of_getElem? he
  exact ⟨m, e, hm, he, (Prod.mk.inj hfirst).1, respectsMutability_of_ofDrawing hm he, hentities⟩

end Model

end ClassDiagram
