import ClassDiagram.Proofs.Model.Frame

/-!
# What associations add

The ends of the associations of a drawing are read edge after edge, and each of them adds at most
one attribute (`Model.Adds`).  `resolveAssociations_eq_ok_iff` says that the stage succeeds just
when all ends can be read and then adds what they add, in their order and nothing else, and
`getElem?_addAttributes` that an entity gets the attributes that are meant for it behind its own.
-/

namespace ClassDiagram

open Stereotype

/-! ### The attribute of an end -/

/-- The ends of the associations of a drawing, in the order in which they are read. -/
def associationEnds (drawing : Node) : List (Node × AssociationSide) :=
  (drawing.query "object" "UML - Association").flatMap fun edge =>
    AssociationSide.all.map fun side => (edge, side)

namespace AssociationEnd

/-- The name of the attribute in the role of an end. -/
def attributeName (e : AssociationEnd) : String :=
  (splitRoleType (splitMemberName e.role).name).1

/-- The type declared in the role of an end. -/
def declaredType? (e : AssociationEnd) : Option String :=
  (splitRoleType (splitMemberName e.role).name).2

/-- The type of the attribute of an end: the declared one, or else as many of the entities at the
end as the multiplicity says. -/
def attributeType (e : AssociationEnd) (owner target : Entity) : Except ModelError TypeExpr :=
  match e.declaredType? with
  | some text => TypeExpr.readAt (.roleType e.attributeName owner.name) text
  | none => .ok (TypeExpr.ofMultiplicity e.multiplicity (.user target.reference))

theorem toAttribute_eq_ok_iff {edge : Node} {e : AssociationEnd} {owner target : Entity}
    {a : Attribute} :
    (e.toAttribute edge owner target).result = .ok a ↔
      e.attributeName ≠ "" ∧ ∃ flags type,
        (bindMember owner.name owner.mutability e.attributeName
          (splitMemberName e.role).stereotype).result = .ok flags ∧
        e.attributeType owner target = .ok type ∧
        a = {
          name := e.attributeName
          type := some type
          visibility := e.visibility
          isVal := flags.isVal
          default := none
          isLazy := flags.isLazy
          isOverriding := false
          isClassScope := false } := by
  rw [toAttribute, attributeType, attributeName, declaredType?]
  generalize splitRoleType (splitMemberName e.role).name = role
  obtain ⟨name, declared⟩ := role
  dsimp only
  -- A role without a name is refused before anything else is looked at.
  by_cases hname : name = ""
  · rw [if_pos hname]
    simp [hname]
  · rw [if_neg hname, Traced.result_bind_eq_ok_iff, and_iff_right hname]
    refine exists_congr fun flags => ?_
    rw [exists_and_left]
    refine and_congr_right fun _ => ?_
    cases declared with
    | none => simp [Traced.result_bind_eq_ok_iff, eq_comm (a := a)]
    | some text => simp [Traced.result_bind_eq_ok_iff, eq_comm (a := a)]

end AssociationEnd

/-! ### The attributes of an entity -/

/-- The attributes that are meant for the entity at the position `i`, in order. -/
def additionsTo (i : Nat) (additions : List AttributeAddition) : List Attribute :=
  (additions.filter fun a => a.position = i).map AttributeAddition.added

/-- The entity with attributes added after its attributes. -/
def Entity.addAttributes (e : Entity) (as : List Attribute) : Entity :=
  { e with attributes := e.attributes ++ as }

theorem getElem?_foldl_addAttributeAt (additions : List AttributeAddition) (es : List Entity)
    (i : Nat) :
    (additions.foldl addAttributeAt es)[i]? =
      es[i]?.map fun e => e.addAttributes (additionsTo i additions) := by
  induction additions generalizing es with
  | nil =>
    have hid : ∀ e : Entity, e.addAttributes [] = e := fun e => by simp [Entity.addAttributes]
    cases h : es[i]? <;> simp [additionsTo, hid, h]
  | cons addition additions ih =>
    -- An addition changes the entity at its own position only.
    rw [List.foldl_cons, ih, addAttributeAt, List.getElem?_modify]
    by_cases hi : addition.position = i
    · cases es[i]? <;>
        simp [additionsTo, Entity.addAttributes, Entity.addAttribute, hi]
    · cases es[i]? <;> simp [additionsTo, hi]

namespace Model

variable {drawing edge : Node} {side : AssociationSide} {m n : Model}

theorem getElem?_addAttributes (m : Model) (additions : List AttributeAddition) (i : Nat) :
    (m.addAttributes additions).entities[i]? =
      m.entities[i]?.map fun e => e.addAttributes (additionsTo i additions) :=
  getElem?_foldl_addAttributeAt additions m.entities i

/-- What attributes do not matter for stays the same for every entity. -/
theorem map_entities_addAttributes {β : Type} {f : Entity → β}
    (hf : ∀ e as, f (Entity.addAttributes e as) = f e) (m : Model)
    (additions : List AttributeAddition) :
    (m.addAttributes additions).entities.map f = m.entities.map f := by
  apply List.ext_getElem?
  intro i
  rw [List.getElem?_map, List.getElem?_map, getElem?_addAttributes]
  cases m.entities[i]? <;> simp [hf]

/-! ### The additions of a drawing -/

/-- An end, with the edge that it belongs to, adds an attribute or nothing. -/
def Adds (m : Model) (p : Node × AssociationSide) (addition : Option AttributeAddition) : Prop :=
  ∃ own opposite, m.endpoint p.1 p.2.handle = .ok own ∧
    m.endpoint p.1 p.2.opposite.handle = .ok opposite ∧
    (m.associationEndAddition p.1 p.2 own opposite).result = .ok addition

theorem associationAdditions_eq_ok_iff {additions : List AttributeAddition} :
    (m.associationAdditions edge).result = .ok additions ↔
      ∃ first second, m.Adds (edge, .a) first ∧ m.Adds (edge, .b) second ∧
        additions = first.toList ++ second.toList := by
  simp only [associationAdditions, Traced.result_bind_eq_ok_iff]
  constructor
  · rintro ⟨ends, hends, first, hfirst, second, hsecond, h⟩
    obtain ⟨hs, ht⟩ := endpoints_eq_ok_iff.1 hends
    cases h
    exact ⟨first, second, ⟨_, _, hs, ht, hfirst⟩, ⟨_, _, ht, hs, hsecond⟩, rfl⟩
  · rintro ⟨first, second, ⟨source, target, hs, ht, hfirst⟩, ⟨target', source', ht', hs', hsecond⟩,
      rfl⟩
    -- Both ends are read between the same two positions.
    obtain rfl : target = target' := Except.ok.inj (ht.symm.trans ht')
    obtain rfl : source = source' := Except.ok.inj (hs.symm.trans hs')
    exact ⟨⟨source, target⟩, endpoints_eq_ok_iff.2 ⟨hs, ht⟩, first, hfirst, second, hsecond, rfl⟩

/-- The associations of a list of edges are read just when all their ends are, and they add what the
ends add. -/
theorem mapM_associationAdditions_eq_ok_iff {edges : List Node}
    {added : List AttributeAddition} :
    (∃ lists, (edges.mapM m.associationAdditions).result = .ok lists ∧ added = lists.flatten) ↔
      ∃ additions, List.Forall₂ m.Adds
        (edges.flatMap fun edge => AssociationSide.all.map fun side => (edge, side)) additions ∧
        added = additions.flatMap Option.toList := by
  simp only [Traced.result_mapM_eq_ok_iff]
  induction edges generalizing added with
  | nil => simp
  | cons edge edges ih =>
    constructor
    · rintro ⟨_, hlists, rfl⟩
      obtain ⟨list, lists, hedge, hedges, rfl⟩ := List.forall₂_cons_left_iff.1 hlists
      obtain ⟨first, second, h1, h2, rfl⟩ := associationAdditions_eq_ok_iff.1 hedge
      obtain ⟨additions, hadds, hflat⟩ := ih.1 ⟨lists, hedges, rfl⟩
      refine ⟨first :: second :: additions, .cons h1 (.cons h2 hadds), ?_⟩
      rw [List.flatten_cons, hflat, List.flatMap_cons, List.flatMap_cons, List.append_assoc]
    · rintro ⟨_, hadds, rfl⟩
      obtain ⟨first, _, h1, htail, rfl⟩ := List.forall₂_cons_left_iff.1 hadds
      obtain ⟨second, additions, h2, hrest, rfl⟩ := List.forall₂_cons_left_iff.1 htail
      obtain ⟨lists, hedges, hflat⟩ := ih.2 ⟨additions, hrest, rfl⟩
      refine ⟨(first.toList ++ second.toList) :: lists,
        .cons (associationAdditions_eq_ok_iff.2 ⟨first, second, h1, h2, rfl⟩) hedges, ?_⟩
      rw [List.flatten_cons, ← hflat, List.flatMap_cons, List.flatMap_cons, List.append_assoc]

/-- The stage adds what the ends of the associations add, in the order of the ends. -/
theorem resolveAssociations_eq_ok_iff :
    (m.resolveAssociations drawing).result = .ok n ↔
      ∃ additions, List.Forall₂ m.Adds (associationEnds drawing) additions ∧
        n = m.addAttributes (additions.flatMap Option.toList) := by
  rw [resolveAssociations, Traced.result_enter_bind, Traced.result_bind_eq_ok_iff]
  constructor
  · rintro ⟨lists, hlists, h⟩
    cases h
    obtain ⟨additions, hadds, hflat⟩ := mapM_associationAdditions_eq_ok_iff.1 ⟨lists, hlists, rfl⟩
    exact ⟨additions, hadds, by rw [hflat]⟩
  · rintro ⟨additions, hadds, rfl⟩
    obtain ⟨lists, hlists, hflat⟩ := mapM_associationAdditions_eq_ok_iff.2 ⟨additions, hadds, rfl⟩
    exact ⟨lists, hlists, by rw [hflat]; rfl⟩

/-- The entity that the end adds its attribute to stands at the position `i`. -/
def isOwner (m : Model) (i : Nat) (p : Node × AssociationSide) : Bool :=
  match AssociationEnd.read p.1 p.2, m.endpoint p.1 p.2.opposite.handle with
  | .ok e, .ok opposite => e.isNavigable && opposite = i
  | _, _ => false

/-- What an end adds, in terms of the two entities that the edge connects. -/
theorem Adds.exists_entities {addition : Option AttributeAddition}
    (h : m.Adds (edge, side) addition) :
    ∃ e own opposite owner target, AssociationEnd.read edge side = .ok e ∧
      m.endpoint edge side.handle = .ok own ∧ m.endpoint edge side.opposite.handle = .ok opposite ∧
      m.entities[opposite]? = some owner ∧ m.entities[own]? = some target ∧
      if e.isNavigable then
        ∃ a, (e.toAttribute edge owner target).result = .ok a ∧ addition = some ⟨opposite, a⟩
      else addition = none := by
  obtain ⟨own, opposite, hown, hopp, hadd⟩ := h
  have htarget := List.getElem?_eq_getElem (lt_length_of_endpoint hown)
  have howner := List.getElem?_eq_getElem (lt_length_of_endpoint hopp)
  obtain ⟨e, he, hadd⟩ := Traced.result_bind_eq_ok_iff.1 hadd
  rw [htarget, howner] at hadd
  refine ⟨e, own, opposite, _, _, mapError_eq_ok_iff.1 he, hown, hopp, howner, htarget, ?_⟩
  by_cases hnav : e.isNavigable = true
  · rw [if_pos hnav] at hadd ⊢
    obtain ⟨a, ha, hadd⟩ := Traced.result_bind_eq_ok_iff.1 hadd
    cases hadd
    exact ⟨a, ha, rfl⟩
  · rw [if_neg hnav] at hadd ⊢
    cases hadd
    rfl

/-- Only the ids of entities matter for where an end adds its attribute. -/
theorem isOwner_congr (h : m.entities.map Entity.id = n.entities.map Entity.id) (i : Nat) :
    m.isOwner i = n.isOwner i := by
  funext p
  rw [isOwner, isOwner, endpoint_congr h]

/-- An end adds one attribute to the entity it is meant for, and none to the others. -/
theorem Adds.additionsTo_toList {p : Node × AssociationSide} {addition : Option AttributeAddition}
    (h : m.Adds p addition) (i : Nat) :
    if m.isOwner i p then ∃ a, addition = some ⟨i, a⟩ ∧ additionsTo i addition.toList = [a]
    else additionsTo i addition.toList = [] := by
  obtain ⟨e, own, opposite, owner, target, he, -, hopp, -, -, hadd⟩ := h.exists_entities
  have howner : m.isOwner i p = (e.isNavigable && decide (opposite = i)) := by
    rw [isOwner, he, hopp]
  rw [howner]
  split at hadd
  · next hnav =>
    obtain ⟨a, -, rfl⟩ := hadd
    by_cases hi : opposite = i <;> simp [additionsTo, hi, hnav]
  · next hnav =>
    subst hadd
    simp [additionsTo, hnav]

theorem additionsTo_append (i : Nat) (as bs : List AttributeAddition) :
    additionsTo i (as ++ bs) = additionsTo i as ++ additionsTo i bs := by
  rw [additionsTo, List.filter_append, List.map_append]
  rfl

/-- The attributes that are meant for an entity are those of the ends that add to it, in the order
of the ends. -/
theorem forall₂_additionsTo {ends : List (Node × AssociationSide)}
    {additions : List (Option AttributeAddition)} (h : List.Forall₂ m.Adds ends additions)
    (i : Nat) :
    List.Forall₂ (fun p a => m.Adds p (some ⟨i, a⟩)) (ends.filter (m.isOwner i))
      (additionsTo i (additions.flatMap Option.toList)) := by
  induction h with
  | nil => exact .nil
  | @cons p addition ends additions hp _ ih =>
    have hadd := hp.additionsTo_toList i
    rw [List.flatMap_cons, additionsTo_append]
    by_cases howner : m.isOwner i p = true
    · rw [if_pos howner] at hadd
      obtain ⟨a, rfl, ha⟩ := hadd
      rw [List.filter_cons_of_pos howner, ha]
      exact .cons hp ih
    · rw [if_neg howner] at hadd
      rw [List.filter_cons_of_neg howner, hadd]
      exact ih

/-- As many attributes are meant for an entity as there are ends that add to it. -/
theorem length_additionsTo_of_forall₂ {ends : List (Node × AssociationSide)}
    {additions : List (Option AttributeAddition)} (h : List.Forall₂ m.Adds ends additions)
    (i : Nat) :
    (additionsTo i (additions.flatMap Option.toList)).length = ends.countP (m.isOwner i) := by
  rw [← (forall₂_additionsTo h i).length_eq, List.countP_eq_length_filter]

end Model

end ClassDiagram
