import ClassDiagram.Proofs.Edge.Generalization
import ClassDiagram.Proofs.Edge.Outcome
import ClassDiagram.Proofs.Edge.Role

/-!
# What associations come to

Each navigable end of an association is meant for the entity at its opposite handle
(`Model.IsMeantFor`), and gives it one attribute for the entity at its own handle (`Model.AddsTo`).
Every entity gets the attributes of the ends that are meant for it behind its own ones, in the order
in which the ends are drawn, and nothing else is changed (`Model.resolveAssociations_exact`).
-/

namespace ClassDiagram

open Stereotype

namespace Model

variable {drawing : Node} {m n : Model} {p : Node × AssociationSide} {i : Nat}

/-! ### Ends -/

/-- The end is navigable, and its opposite handle is attached to the entity at the position `i`. -/
def IsMeantFor (m : Model) (i : Nat) (p : Node × AssociationSide) : Prop :=
  (∃ e, AssociationEnd.read p.1 p.2 = .ok e ∧ e.isNavigable = true) ∧
    m.AttachedAt p.1 p.2.opposite.handle i

/-- The end gives the attribute `a` to the entity `owner`. -/
def AddsTo (m : Model) (owner : Entity) (p : Node × AssociationSide) (a : Attribute) : Prop :=
  ∃ e r j target, AssociationEnd.read p.1 p.2 = .ok e ∧ r.IsReadFrom e.role ∧
    m.Attached p.1 p.2.handle j target ∧ e.Yields r owner target a

/-- The edge of the end connects entities, the end can be read, and it has an attribute for an
entity that it is meant for. -/
structure ReadsEnd (m : Model) (p : Node × AssociationSide) : Prop where
  connected : m.Connected p.1
  read : ∃ e, AssociationEnd.read p.1 p.2 = .ok e
  adds : ∀ i owner, m.IsMeantFor i p → m.entities[i]? = some owner → ∃ a, m.AddsTo owner p a

theorem isOwner_iff : m.isOwner i p = true ↔ m.IsMeantFor i p := by
  rw [IsMeantFor, attachedAt_iff, isOwner]
  cases AssociationEnd.read p.1 p.2 <;> cases m.endpoint p.1 p.2.opposite.handle <;> simp

instance : DecidablePred (m.IsMeantFor i) := fun _ => decidable_of_iff _ isOwner_iff

/-- The navigable ends in a drawing that are meant for the entity at the position `i`, in order. -/
def endsMeantFor (drawing : Node) (m : Model) (i : Nat) : List (Node × AssociationSide) :=
  (associationEnds drawing).filter fun p => m.IsMeantFor i p

/-- The associations of the drawing make `e'` of the entity `e` at the position `i`: its attributes
are followed by those of the ends that are meant for it. -/
def Gains (drawing : Node) (m : Model) (i : Nat) (e e' : Entity) : Prop :=
  ∃ added, e' = e.addAttributes added ∧
    List.Forall₂ (m.AddsTo e) (m.endsMeantFor drawing i) added

theorem addsTo_iff {owner : Entity} {a : Attribute} : m.AddsTo owner p a ↔
    ∃ e j target, AssociationEnd.read p.1 p.2 = .ok e ∧ m.Attached p.1 p.2.handle j target ∧
      (e.toAttribute p.1 owner target).result = .ok a := by
  simp only [← AssociationEnd.exists_yields_iff, AddsTo]
  constructor
  · rintro ⟨e, r, j, target, he, hr, htarget, hyields⟩
    exact ⟨e, j, target, he, htarget, r, hr, hyields⟩
  · rintro ⟨e, j, target, he, htarget, r, hr, hyields⟩
    exact ⟨e, r, j, target, he, hr, htarget, hyields⟩

theorem rightUnique_addsTo (m : Model) (owner : Entity) : Relator.RightUnique (m.AddsTo owner) := by
  intro p a a' ha ha'
  obtain ⟨e, j, target, he, htarget, ha⟩ := addsTo_iff.1 ha
  obtain ⟨e', j', target', he', htarget', ha'⟩ := addsTo_iff.1 ha'
  obtain rfl := Except.ok.inj (he.symm.trans he')
  obtain ⟨-, rfl⟩ := htarget.unique htarget'
  exact Except.ok.inj (ha.symm.trans ha')

/-! ### Ends that are read -/

theorem connected_iff_handles (edge : Node) (side : AssociationSide) : m.Connected edge ↔
    (∃ i, m.AttachedAt edge side.handle i) ∧ ∃ i, m.AttachedAt edge side.opposite.handle i := by
  cases side with
  | a => exact Iff.rfl
  | b => exact And.comm

/-- What an end adds, in terms of the two entities that the edge connects. -/
theorem adds_iff {addition : Option AttributeAddition} : m.Adds p addition ↔
    ∃ e own opposite owner target, AssociationEnd.read p.1 p.2 = .ok e ∧
      m.Attached p.1 p.2.handle own target ∧ m.Attached p.1 p.2.opposite.handle opposite owner ∧
      if e.isNavigable then
        ∃ a, (e.toAttribute p.1 owner target).result = .ok a ∧ addition = some ⟨opposite, a⟩
      else addition = none := by
  constructor
  · intro h
    obtain ⟨e, own, opposite, owner, target, he, hown, hopposite, howner, htarget, hadd⟩ :=
      h.exists_entities
    exact ⟨e, own, opposite, owner, target, he, attached_iff.2 ⟨hown, htarget⟩,
      attached_iff.2 ⟨hopposite, howner⟩, hadd⟩
  · rintro ⟨e, own, opposite, owner, target, he, htarget, howner, hadd⟩
    obtain ⟨hown, htarget⟩ := attached_iff.1 htarget
    obtain ⟨hopposite, howner⟩ := attached_iff.1 howner
    refine ⟨own, opposite, hown, hopposite, ?_⟩
    rw [associationEndAddition, Traced.result_bind_eq_ok_iff]
    refine ⟨e, mapError_eq_ok_iff.2 he, ?_⟩
    rw [howner, htarget]
    split_ifs at hadd ⊢ with hnavigable
    · obtain ⟨a, ha, rfl⟩ := hadd
      exact Traced.result_bind_eq_ok_iff.2 ⟨a, ha, rfl⟩
    · rw [hadd]
      rfl

/-- An end that is meant for an entity adds the attribute that it gives to this entity. -/
theorem Adds.addsTo {a : Attribute} (h : m.Adds p (some ⟨i, a⟩)) {owner : Entity}
    (howner : m.entities[i]? = some owner) : m.AddsTo owner p a := by
  obtain ⟨e, own, opposite, owner', target, he, htarget, howner', hadd⟩ := adds_iff.1 h
  split_ifs at hadd
  obtain ⟨a', ha', hadd⟩ := hadd
  obtain ⟨rfl, rfl⟩ := AttributeAddition.mk.inj (Option.some.inj hadd)
  obtain rfl := Option.some.inj (howner'.getElem?.symm.trans howner)
  exact addsTo_iff.2 ⟨e, own, target, he, htarget, ha'⟩

theorem exists_adds_iff : (∃ addition, m.Adds p addition) ↔ m.ReadsEnd p := by
  simp only [adds_iff]
  constructor
  · rintro ⟨addition, e, own, opposite, owner, target, he, htarget, howner, hadd⟩
    refine ⟨(connected_iff_handles p.1 p.2).2 ⟨⟨own, target, htarget⟩, opposite, owner, howner⟩,
      ⟨e, he⟩, ?_⟩
    rintro i owner' ⟨⟨e', he', hnavigable⟩, d, hd⟩ howner'
    -- The end that is meant for the entity is the one that has been read.
    obtain rfl := Except.ok.inj (he.symm.trans he')
    obtain ⟨rfl, rfl⟩ := howner.unique hd
    obtain rfl := Option.some.inj (howner.getElem?.symm.trans howner')
    rw [if_pos hnavigable] at hadd
    obtain ⟨a, ha, -⟩ := hadd
    exact ⟨a, addsTo_iff.2 ⟨e, own, target, he, htarget, ha⟩⟩
  · rintro ⟨hconnected, ⟨e, he⟩, hadds⟩
    obtain ⟨⟨own, target, htarget⟩, opposite, owner, howner⟩ :=
      (connected_iff_handles p.1 p.2).1 hconnected
    by_cases hnavigable : e.isNavigable = true
    · obtain ⟨a, ha⟩ := hadds opposite owner ⟨⟨e, he, hnavigable⟩, owner, howner⟩ howner.getElem?
      obtain ⟨e', j, target', he', htarget', ha⟩ := addsTo_iff.1 ha
      obtain rfl := Except.ok.inj (he.symm.trans he')
      refine ⟨some ⟨opposite, a⟩, e, j, opposite, owner, target', he, htarget', howner, ?_⟩
      rw [if_pos hnavigable]
      exact ⟨a, ha, rfl⟩
    · refine ⟨none, e, own, opposite, owner, target, he, htarget, howner, ?_⟩
      rw [if_neg hnavigable]

/-! ### The stage -/

theorem gains_iff {additions : List (Option AttributeAddition)}
    (h : List.Forall₂ m.Adds (associationEnds drawing) additions) {e e' : Entity}
    (he : m.entities[i]? = some e) : m.Gains drawing i e e' ↔
      e' = e.addAttributes (additionsTo i (additions.flatMap Option.toList)) := by
  have hmeant : m.endsMeantFor drawing i = (associationEnds drawing).filter (m.isOwner i) := by
    simp only [endsMeantFor, ← isOwner_iff, Bool.decide_eq_true]
  have hadded := (forall₂_additionsTo h i).imp fun p a hadds => hadds.addsTo he
  rw [← hmeant] at hadded
  simp only [Gains, forall₂_iff_eq (m.rightUnique_addsTo e) hadded, exists_eq_right]

theorem resolveAssociations_eq_ok_iff_edits (n : Model) :
    (m.resolveAssociations drawing).result = .ok n ↔
      ∃ additions, List.Forall₂ m.Adds (associationEnds drawing) additions ∧
        n = m.editEntities fun i e =>
          e.addAttributes (additionsTo i (additions.flatMap Option.toList)) := by
  simp only [resolveAssociations_eq_ok_iff, addAttributes, foldl_addAttributeAt]
  rfl

theorem exists_additions_iff :
    (∃ additions, List.Forall₂ m.Adds (associationEnds drawing) additions) ↔
      ∀ p ∈ associationEnds drawing, m.ReadsEnd p := by
  simp only [exists_forall₂_iff, exists_adds_iff]

/-- The stage for associations succeeds just when all ends can be read, and each navigable end has
an attribute for the entity at its opposite handle.  Every entity then gets the attributes of the
ends that are meant for it, and nothing else is changed. -/
theorem resolveAssociations_exact (drawing : Node) (m : Model) :
    ((∃ n, (m.resolveAssociations drawing).result = .ok n) ↔
        ∀ p ∈ associationEnds drawing, m.ReadsEnd p) ∧
      ∀ n, (m.resolveAssociations drawing).result = .ok n ↔
        (∀ p ∈ associationEnds drawing, m.ReadsEnd p) ∧ m.Becomes (m.Gains drawing) n := by
  constructor
  · rw [exists_eq_ok_iff_of_edits resolveAssociations_eq_ok_iff_edits, exists_additions_iff]
  · intro n
    rw [eq_ok_iff_becomes_of_edits resolveAssociations_eq_ok_iff_edits
      fun additions hadditions i e e' he => gains_iff hadditions he, exists_additions_iff]

/-! ### Orders that replace orders -/

/-- What a drawing holds about an end with the given role and multiplicity and without an arrow. -/
def endPayloads (side : AssociationSide) (role multiplicity : String) : List Node :=
  [.named (side.payloadName "role") (.ofString role),
    .named (side.payloadName "multipicity") (.ofString multiplicity),
    .named (side.payloadName "visibility") (.ofCode 1),
    .named (side.payloadName "show_arrow") (.ofBool false)]

/-- An order knows the orders that it replaces and the one that replaces it, and has a deadline if
it is a rush order. -/
def replacedOrders : List Node :=
  [(endPayloads .a "<<lazy>> replaced" "*" ++ endPayloads .b " <<var>>replacing : Order" "").foldl
      Node.addChild (edgeBetween "UML - Association" "O3" "O1" "O1"),
    (endPayloads .a "" "" ++ endPayloads .b "deadline" "0-1").foldl
      Node.addChild (edgeBetween "UML - Association" "O4" "O0" "O2")]

/-- Both handles of an association may be attached to one entity. -/
theorem becomes_of_replacedOrders :
    ∃ n, (orderClasses.resolveAssociations (edgeDrawing replacedOrders)).result = .ok n ∧
      orderClasses.Becomes (orderClasses.Gains (edgeDrawing replacedOrders)) n ∧
      n.entities.map (fun e => e.attributes.map fun a => (a.name, a.flags, a.type)) =
        [[("deadline", ⟨true, false⟩, some (.optionOf (.user ⟨"Dated", ""⟩)))],
          [("replaced", ⟨true, true⟩, some (.seqOf (.user ⟨"Order", ""⟩))),
            ("replacing", ⟨false, false⟩, some (.user ⟨"Order", ""⟩))],
          []] := by
  have hmodel : (orderClasses.resolveAssociations (edgeDrawing replacedOrders)).result.toOption.map
      (fun n => n.entities.map fun e => e.attributes.map fun a => (a.name, a.flags, a.type)) =
      some [[("deadline", ⟨true, false⟩, some (.optionOf (.user ⟨"Dated", ""⟩)))],
        [("replaced", ⟨true, true⟩, some (.seqOf (.user ⟨"Order", ""⟩))),
          ("replacing", ⟨false, false⟩, some (.user ⟨"Order", ""⟩))],
        []] := by
    decide +kernel
  obtain ⟨n, hn, hattributes⟩ := exists_eq_ok_of_toOption_map hmodel
  exact ⟨n, hn, (((resolveAssociations_exact _ _).2 n).1 hn).2, hattributes⟩

end Model

end ClassDiagram
