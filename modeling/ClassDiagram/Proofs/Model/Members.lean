import ClassDiagram.Proofs.Model.AssociationTypes
import ClassDiagram.Proofs.Model.Completion

/-!
# The entities and members of a drawing in its model

A class object stands in the model as one entity with all its members or as two, of which one has
the members of the instances and the other, right behind it, those of the class (`entityPlaces`).
Every entity has the members of its own records, in the order of the records, with the attributes
that associations add behind them (`keepsMembers_of_ofDrawing`).
-/

namespace ClassDiagram

open Text Stereotype

/-! ### Parts of class objects -/

/-- The members of a class object that an entity has. -/
inductive Part where
  /-- All of them. -/
  | whole
  /-- Those that belong to instances of the class. -/
  | instances
  /-- Those that belong to the class itself. -/
  | companion
deriving DecidableEq

namespace Part

/-- What the id of the part has behind the id of the class object. -/
def suffix : Part → String
  | companion => "_companion"
  | _ => ""

/-- The part has the members that do, or do not, belong to the class itself. -/
def selects : Part → Bool → Bool
  | whole, _ => true
  | instances, isClassScope => !isClassScope
  | companion, isClassScope => isClassScope

/-- The part of an entity that has all members. -/
def of (e : Entity) : Part → Entity
  | whole => e
  | instances => e.instancePart
  | companion => e.companion

end Part

theorem Part.suffix_eq_empty {part : Part} (h : part ≠ .companion) : part.suffix = "" := by
  cases part with
  | companion => exact absurd rfl h
  | whole | instances => rfl

/-- The parts that a class object stands in the model as: two, if it is no object and some member of
it belongs to the class. -/
def Node.parts (c : Node) : List Part :=
  if !c.drawsObject && (c.attributeRecords ++ c.operationRecords).any Node.isClassScoped then
    [.instances, .companion]
  else [.whole]

/-- The parts of the class objects of a drawing, in the order of the objects. -/
def entityPlaces (drawing : Node) : List (Node × Part) :=
  (drawing.query "object" "UML - Class").flatMap fun c => c.parts.map fun part => (c, part)

/-- A class object always stands in the model with a part that is no companion. -/
theorem Node.exists_mem_parts (c : Node) : ∃ part ∈ c.parts, part ≠ .companion := by
  unfold parts
  split
  · exact ⟨.instances, by decide, by decide⟩
  · exact ⟨.whole, by decide, by decide⟩

theorem mem_entityPlaces_iff {drawing c : Node} {part : Part} :
    (c, part) ∈ entityPlaces drawing ↔
      c ∈ drawing.query "object" "UML - Class" ∧ part ∈ c.parts := by
  simp [entityPlaces]

theorem exists_entityPlace {drawing c : Node} {part : Part}
    (hc : c ∈ drawing.query "object" "UML - Class") (hpart : part ∈ c.parts) :
    ∃ i : Nat, (entityPlaces drawing)[i]? = some (c, part) :=
  List.mem_iff_getElem?.1 (mem_entityPlaces_iff.2 ⟨hc, hpart⟩)

namespace Entity

section Records

variable {α : Type} {R : Node → α → Prop} {isClassScope : α → Bool} {records : List Node}
  {members : List α} (h : List.Forall₂ R records members)
  (hR : ∀ r a, R r a → isClassScope a = r.isClassScoped)

include h hR

theorem any_isClassScope_of_forall₂ :
    members.any isClassScope = records.any Node.isClassScoped := by
  induction h with
  | nil => rfl
  | cons hr _ ih => rw [List.any_cons, List.any_cons, hR _ _ hr, ih]

/-- The members of a part are those of its records. -/
theorem forall₂_filter_selects (part : Part) :
    List.Forall₂ R (records.filter fun r => part.selects r.isClassScoped)
      (members.filter fun a => part.selects (isClassScope a)) := by
  refine List.rel_filter ?_ h
  intro r a hr
  show part.selects r.isClassScoped = true ↔ part.selects (isClassScope a) = true
  rw [hR r a hr]

end Records

theorem ReadFrom.hasClassScope_eq {c : Node} {e : Entity} (h : e.ReadFrom c) :
    e.hasClassScope = (c.attributeRecords ++ c.operationRecords).any Node.isClassScoped := by
  rw [hasClassScope, List.any_append,
    any_isClassScope_of_forall₂ h.attributes fun _ _ => Attribute.isClassScope_of_read,
    any_isClassScope_of_forall₂ h.operations fun _ _ => Operation.isClassScope_of_read]

theorem ReadFrom.withCompanion_eq {c : Node} {e : Entity} (h : e.ReadFrom c) :
    e.withCompanion = c.parts.map (Part.of e) := by
  unfold withCompanion needsCompanion Node.parts
  rw [h.isObject_eq, h.hasClassScope_eq]
  split
  · rfl
  · rfl

/-- Members that belong to a class are on objects only. -/
theorem kind_eq_object_of_mem_withCompanion {d e : Entity} (he : e ∈ d.withCompanion)
    (hs : e.hasClassScope = true) : e.kind = .object := by
  unfold withCompanion at he
  split at he
  · rcases List.mem_cons.1 he with rfl | he
    · simp [hasClassScope, instancePart] at hs
    · obtain rfl := List.mem_singleton.1 he
      rfl
  · next hneeds =>
    obtain rfl := List.mem_singleton.1 he
    simpa [needsCompanion, hs, isObject] using hneeds

theorem id_of (e : Entity) (part : Part) : (part.of e).id = e.id ++ part.suffix := by
  cases part with
  | companion => rfl
  | whole | instances => exact String.append_empty.symm

theorem reference_of (e : Entity) (part : Part) : (part.of e).reference = e.reference := by
  cases part <;> rfl

theorem geometry_of (e : Entity) (part : Part) : (part.of e).geometry = e.geometry := by
  cases part <;> rfl

theorem attributes_of (e : Entity) (part : Part) :
    (part.of e).attributes = e.attributes.filter fun a => part.selects a.isClassScope := by
  cases part with
  | whole => exact (List.filter_eq_self.2 fun _ _ => rfl).symm
  | instances | companion => rfl

theorem operations_of (e : Entity) (part : Part) :
    (part.of e).operations = e.operations.filter fun o => part.selects o.isClassScope := by
  cases part with
  | whole => exact (List.filter_eq_self.2 fun _ _ => rfl).symm
  | instances | companion => rfl

end Entity

namespace Model

variable {drawing : Node} {imports : ImportTable} {d m : Model} {r : EdgeReading}

/-- The drawn entities are the parts of what has been read from the class objects, one at each
place. -/
theorem Spells.forall₂_entityPlaces {es : List Entity} (h : Spells drawing es d) :
    List.Forall₂ (fun p e => p.2 ∈ p.1.parts ∧ ∃ w ∈ es, Entity.ReadFrom p.1 w ∧ e = p.2.of w)
      (entityPlaces drawing) d.entities := by
  have hread := h.readFrom
  rw [h.entities_eq, entityPlaces]
  clear h
  generalize drawing.query "object" "UML - Class" = classes at hread
  induction hread with
  | nil => exact .nil
  | @cons c w cs ws hw _ ih =>
    rw [List.flatMap_cons, List.flatMap_cons]
    refine List.rel_append ?_ (ih.imp ?_)
    · rw [hw.withCompanion_eq, List.forall₂_map_left_iff, List.forall₂_map_right_iff,
        List.forall₂_same]
      intro part hpart
      exact ⟨hpart, w, List.mem_cons_self, hw, rfl⟩
    · rintro p e ⟨hpart, w', hw', hread, heq⟩
      exact ⟨hpart, w', List.mem_cons_of_mem w hw', hread, heq⟩

theorem Spells.exists_entity {es : List Entity} (h : Spells drawing es d) {i : Nat} {c : Node}
    {part : Part} (hi : (entityPlaces drawing)[i]? = some (c, part)) :
    part ∈ c.parts ∧ ∃ w ∈ es, w.ReadFrom c ∧ d.entities[i]? = some (part.of w) := by
  obtain ⟨_, he, hpart, w, hw, hread, rfl⟩ := exists_getElem?_of_forall₂ h.forall₂_entityPlaces hi
  exact ⟨hpart, w, hw, hread, he⟩

theorem Spells.exists_place {es : List Entity} (h : Spells drawing es d) {i : Nat} {e : Entity}
    (he : d.entities[i]? = some e) : ∃ c part, (entityPlaces drawing)[i]? = some (c, part) := by
  obtain ⟨hi, -⟩ := List.getElem?_eq_some_iff.1 he
  rw [← h.forall₂_entityPlaces.length_eq] at hi
  exact ⟨_, _, List.getElem?_eq_getElem hi⟩

theorem forall₂_entityPlaces (hd : (entitiesOfDrawing drawing imports).result = .ok d) :
    List.Forall₂ (fun p e => ∃ w, Entity.ReadFrom p.1 w ∧
      w.package = packageAround d.packages w.geometry ∧ e = p.2.of w)
      (entityPlaces drawing) d.entities := by
  obtain ⟨es, hes⟩ := exists_spells_of_entitiesOfDrawing hd
  refine hes.forall₂_entityPlaces.imp ?_
  rintro p e ⟨-, w, hw, hread, heq⟩
  exact ⟨w, hread, hes.package_eq w hw, heq⟩

/-! ### Members of the model -/

/-- The attribute `a` is that of a record of `owner`. -/
def IsAttributeOf (m : Model) (owner : Entity) (record : Node) (a : Attribute) : Prop :=
  ∃ b, (Attribute.read owner.name owner.mutability record).result = .ok b ∧
    m.FinishedAttribute b a

/-- The operation `o` is that of a record of `owner`. -/
def IsOperationOf (m : Model) (owner : Entity) (record : Node) (o : Operation) : Prop :=
  ∃ b, Operation.read owner.name record = .ok b ∧ m.FinishedOperation b o

/-- The attribute `a` of `owner` is that of an end of an association. -/
def IsOfEnd (m : Model) (owner : Entity) (p : Node × AssociationSide) (a : Attribute) : Prop :=
  ∃ e own target b, AssociationEnd.read p.1 p.2 = .ok e ∧ m.endpoint p.1 p.2.handle = .ok own ∧
    m.entities[own]? = some target ∧ (e.toAttribute p.1 owner target).result = .ok b ∧
    m.FinishedAttribute b a

/-- The entity `e`, at the position `i`, is a part of the class object `c`: it has the id, the name
and the rectangle of the object, the attributes of its records and behind them those of the ends of
associations that add to it, and the operations of its records. -/
structure IsPart (drawing : Node) (m : Model) (i : Nat) (c : Node) (part : Part) (e : Entity) :
    Prop where
  id_eq : ∃ id, c.requiredId = .ok id ∧ e.id = id ++ part.suffix
  reference_eq : ∃ text, c.string "name" = .ok text ∧
    e.reference = ⟨trimmed text, packageAround m.packages e.geometry⟩
  geometry_eq : c.rectangle = .ok e.geometry
  kind_eq : part = .companion → e.kind = .object
  attributes : ∃ owner drawn added, Entity.ReadFrom c owner ∧ e.attributes = drawn ++ added ∧
    List.Forall₂ (m.IsAttributeOf owner)
      (c.attributeRecords.filter fun record => part.selects record.isClassScoped) drawn ∧
    List.Forall₂ (m.IsOfEnd e) ((associationEnds drawing).filter (m.isOwner i)) added
  operations : List.Forall₂ (m.IsOperationOf e)
    (c.operationRecords.filter fun record => part.selects record.isClassScoped) e.operations

theorem Finished.hasClassScope_eq {e e' : Entity} (h : m.Finished e e') :
    e.hasClassScope = e'.hasClassScope := by
  obtain ⟨f, hattributes, hf⟩ := h.exists_attributes
  obtain ⟨g, hoperations, hg⟩ := h.exists_operations
  have hattribute : ∀ a, (f a).isClassScope = a.isClassScope := by
    intro a
    rw [hf a]
    rfl
  have hoperation : ∀ o, (g o).isClassScope = o.isClassScope := by
    intro o
    rw [hg o]
    rfl
  unfold Entity.hasClassScope
  rw [hattributes, hoperations, List.any_map, List.any_map]
  simp only [Function.comp_def, hattribute, hoperation]

section Part

variable {i : Nat} {c : Node} {part : Part} {w e : Entity}
  (h : m.Finished (r.applyAt d.typeAt? i (part.of w)) e)

include h

theorem Finished.reference_eq_of_part : e.reference = w.reference := by
  rw [← h.reference_eq]
  exact w.reference_of part

theorem Finished.geometry_eq_of_part : e.geometry = w.geometry := by
  rw [← h.geometry_eq]
  exact w.geometry_of part

theorem Finished.forall₂_operations (hw : w.ReadFrom c) :
    List.Forall₂ (m.IsOperationOf e)
      (c.operationRecords.filter fun record => part.selects record.isClassScoped)
      e.operations := by
  obtain ⟨f, hoperations, hf⟩ := h.exists_operations
  have hname : e.name = w.name := by
    rw [Entity.name, h.reference_eq_of_part, Entity.name]
  have hread := Entity.forall₂_filter_selects hw.operations
    (fun _ _ => Operation.isClassScope_of_read) part
  rw [hoperations, List.forall₂_map_right_iff]
  show List.Forall₂ _ _ (part.of w).operations
  rw [Entity.operations_of]
  refine hread.imp ?_
  intro record o ho
  exact ⟨o, by rw [hname, ho], hf o⟩

end Part

/-! ### What associations add to an entity -/

/-- Associations add attributes of instances only. -/
theorem Adds.isClassScope_eq {p : Node × AssociationSide} {x : AttributeAddition}
    (h : m.Adds p (some x)) : x.added.isClassScope = false := by
  obtain ⟨e, own, opposite, owner, target, -, -, -, -, -, hadd⟩ := h.exists_entities
  split at hadd
  · obtain ⟨a, ha, heq⟩ := hadd
    cases heq
    obtain ⟨-, flags, type, -, -, rfl⟩ := AssociationEnd.toAttribute_eq_ok_iff.1 ha
    rfl
  · cases hadd

theorem Reads.hasClassScope_applyAt (h : d.Reads drawing r) (types : Nat → Option TypeExpr)
    (i : Nat) (e : Entity) : (r.applyAt types i e).hasClassScope = e.hasClassScope := by
  obtain ⟨additions, hadds, hadditions⟩ := h.associations
  have hnone : (additionsTo i r.additions).any Attribute.isClassScope = false := by
    rw [hadditions, List.any_eq_false]
    intro a ha
    obtain ⟨p, -, hp⟩ := exists_of_forall₂_right (forall₂_additionsTo hadds i) ha
    rw [hp.isClassScope_eq]
    exact Bool.false_ne_true
  show ((e.attributes ++ additionsTo i r.additions).any _ || e.operations.any _) = _
  rw [List.any_append, hnone, Bool.or_false]
  rfl

namespace Completes

variable (h : d.Completes drawing r m)

include h

/-- What is added to an entity is what the ends say in the finished model. -/
theorem isOfEnd {i : Nat} {e e' : Entity} (he : d.entities[i]? = some e)
    (hreference : e'.reference = e.reference) (hmutability : e'.mutability = e.mutability)
    {p : Node × AssociationSide} {a b : Attribute} (hadd : d.Adds p (some ⟨i, b⟩))
    (hb : m.FinishedAttribute b a) : m.IsOfEnd e' p a := by
  obtain ⟨x, own, opposite, owner, target, hread, hown, hopp, howner, htarget, hadd⟩ :=
    hadd.exists_entities
  split at hadd
  · obtain ⟨b', hb', heq⟩ := hadd
    cases heq
    obtain rfl : e = owner := Option.some.inj (he.symm.trans howner)
    obtain ⟨target', htarget', hfinished⟩ := h.exists_finished htarget
    have htype : target.reference = target'.reference := hfinished.reference_eq
    rw [← h.endpoint_eq] at hown
    refine ⟨x, own, target', b, hread, hown, htarget', ?_, hb⟩
    rw [x.toAttribute_congr hreference hmutability htype.symm]
    exact hb'
  · cases hadd

/-- The drawn attributes of a part stand before those that associations add. -/
theorem exists_attributes {i : Nat} {c : Node} {part : Part} {w e : Entity} (hw : w.ReadFrom c)
    (he : d.entities[i]? = some (part.of w))
    (hfinished : m.Finished (r.applyAt d.typeAt? i (part.of w)) e) :
    ∃ drawn added, e.attributes = drawn ++ added ∧
      List.Forall₂ (m.IsAttributeOf w)
        (c.attributeRecords.filter fun record => part.selects record.isClassScoped) drawn ∧
      List.Forall₂ (m.IsOfEnd e) ((associationEnds drawing).filter (m.isOwner i)) added := by
  obtain ⟨f, hattributes, hf⟩ := hfinished.exists_attributes
  obtain ⟨additions, hadds, hadditions⟩ := h.reads.associations
  -- Edges add attributes behind the drawn ones, and finishing keeps the order.
  refine ⟨(part.of w).attributes.map f, (additionsTo i r.additions).map f, ?_, ?_, ?_⟩
  · rw [hattributes, ← List.map_append]
    rfl
  · rw [List.forall₂_map_right_iff, Entity.attributes_of]
    have hread := Entity.forall₂_filter_selects hw.attributes
      (fun _ _ => Attribute.isClassScope_of_read) part
    exact hread.imp fun record a ha => ⟨a, ha, hf a⟩
  · rw [List.forall₂_map_right_iff, hadditions, isOwner_congr h.ids_eq]
    refine (forall₂_additionsTo hadds i).imp ?_
    intro p a hadd
    refine h.isOfEnd he ?_ ?_ hadd (hf a)
    · rw [hfinished.reference_eq_of_part, Entity.reference_of]
    · rw [← hfinished.mutability_eq]
      rfl

/-- Every part of a class object stands at its place. -/
theorem exists_isPart (hd : (entitiesOfDrawing drawing imports).result = .ok d) {i : Nat} {c : Node}
    {part : Part} (hp : (entityPlaces drawing)[i]? = some (c, part)) :
    ∃ e, m.entities[i]? = some e ∧ m.IsPart drawing i c part e := by
  obtain ⟨_, he, w, hw, hpackage, rfl⟩ := exists_getElem?_of_forall₂ (forall₂_entityPlaces hd) hp
  obtain ⟨e, he', hfinished⟩ := h.exists_finished he
  have hreference := hfinished.reference_eq_of_part
  have hgeometry := hfinished.geometry_eq_of_part
  obtain ⟨drawn, added, hattributes, hdrawn, hadded⟩ := h.exists_attributes hw he hfinished
  refine ⟨e, he', ?_, ?_, ?_, ?_, ⟨w, drawn, added, hw, hattributes, hdrawn, hadded⟩,
    hfinished.forall₂_operations hw⟩
  · refine ⟨w.id, hw.id_eq, ?_⟩
    rw [← hfinished.id_eq]
    exact w.id_of part
  · obtain ⟨text, htext, hname⟩ := hw.name_eq
    refine ⟨text, htext, ?_⟩
    rw [hreference, hgeometry, h.packages_eq, ← hname, ← hpackage]
    rfl
  · rw [hgeometry]
    exact hw.geometry_eq
  · rintro rfl
    rw [← hfinished.kind_eq]
    exact EdgeReading.kind_applyAt rfl

/-- Every entity of the model is a part of some class object. -/
theorem exists_isPart_of_getElem? (hd : (entitiesOfDrawing drawing imports).result = .ok d) {i : Nat}
    {e : Entity} (he : m.entities[i]? = some e) : ∃ c part, m.IsPart drawing i c part e := by
  obtain ⟨_, he₀, -⟩ := h.exists_drawn he
  obtain ⟨⟨c, part⟩, hp, -⟩ := exists_getElem?_of_forall₂ (forall₂_entityPlaces hd).flip he₀
  obtain ⟨e', he', hpart⟩ := h.exists_isPart hd hp
  obtain rfl : e = e' := Option.some.inj (he.symm.trans he')
  exact ⟨c, part, hpart⟩

/-- Members that belong to a class are on objects only. -/
theorem kind_eq_object (hd : (entitiesOfDrawing drawing imports).result = .ok d) {e : Entity}
    (he : e ∈ m.entities) (hs : e.hasClassScope = true) : e.kind = .object := by
  obtain ⟨i, e₀, he₀, hfinished⟩ := h.exists_drawn_of_mem he
  obtain ⟨c, w, -, -, hmem⟩ := exists_readFrom_of_mem hd he₀
  rw [← hfinished.kind_eq]
  apply EdgeReading.kind_applyAt
  apply Entity.kind_eq_object_of_mem_withCompanion hmem
  rw [← h.reads.hasClassScope_applyAt, hfinished.hasClassScope_eq]
  exact hs

end Completes

/-- The members of a drawing are in the model: its entities are the parts of the class objects in
their order, with the members of their records.  Members that belong to a class are on objects, so
that no ancestor has one and no member is marked for overriding it. -/
structure KeepsMembers (drawing : Node) (m : Model) : Prop where
  length_eq : m.entities.length = (entityPlaces drawing).length
  part : ∀ i c part, (entityPlaces drawing)[i]? = some (c, part) →
    ∃ e, m.entities[i]? = some e ∧ m.IsPart drawing i c part e
  kind_eq : ∀ e ∈ m.entities, e.hasClassScope = true → e.kind = .object
  marked : ∀ e ∈ m.entities, ∃ as, m.IsMarked e as ∧ ∀ x ∈ as, x.hasClassScope = false

/-- Nothing that is drawn on a class object is lost on the way to the model, whatever edges there
are. -/
theorem keepsMembers_of_ofDrawing (h : (ofDrawing drawing imports).result = .ok m) :
    m.KeepsMembers drawing := by
  obtain ⟨d, r, hd, hm, -⟩ := exists_completion_of_ofDrawing h
  have hkind : ∀ e ∈ m.entities, e.hasClassScope = true → e.kind = .object :=
    fun e he => hm.kind_eq_object hd he
  refine ⟨?_, fun i c part hp => hm.exists_isPart hd hp, hkind, ?_⟩
  · rw [hm.length_entities, (forall₂_entityPlaces hd).length_eq]
  · intro e he
    obtain ⟨as, has⟩ := exists_isMarked_of_markOverrides hm.marked he
    refine ⟨as, has, fun x hx => ?_⟩
    -- Ancestors can be inherited from, which objects cannot.
    obtain ⟨ref, href⟩ := exists_resolveAncestor_of_mem has.ancestors_eq hx
    by_contra hscope
    have hobject := hkind x (mem_of_resolveAncestor href) (Bool.eq_true_of_not_eq_false hscope)
    have hinheritable := isInheritable_of_resolveAncestor href
    rw [hobject] at hinheritable
    exact absurd hinheritable (by decide)

/-! ### A drawing with a companion -/

/-- The record of an attribute with a name. -/
def attributeRecord (name : String) (isClassScope : Bool) : Node :=
  { Node.composite "umlattribute" with
    children := [
      .named "name" (.ofString name),
      .named "type" (.ofString ""),
      .named "visibility" (.ofCode 0),
      .named "class_scope" (.ofBool isClassScope)] }

/-- Orders, which are counted, with the instant at which each of them was placed. -/
def countedOrders : Node :=
  let records := [attributeRecord "count" true, attributeRecord "number" false]
  { Node.ofKind "diagram" with
    children := [
      (classObject "O0" "Order").addChild (.namedRecords "attributes" records),
      classObject "O1" "Instant", placement] }

theorem keepsMembers_of_countedOrders :
    ∃ m, (ofDrawing countedOrders .empty).result = .ok m ∧ m.KeepsMembers countedOrders ∧
      m.entities.map (fun e => (e.id, e.attributes.map Attribute.name)) =
        [("O0", ["number", "placed"]), ("O0_companion", ["count"]), ("O1", [])] := by
  have hmodel : (ofDrawing countedOrders .empty).result.toOption.map
      (fun m => m.entities.map fun e => (e.id, e.attributes.map Attribute.name)) =
      some [("O0", ["number", "placed"]), ("O0_companion", ["count"]), ("O1", [])] := by
    decide +kernel
  cases h : (ofDrawing countedOrders .empty).result with
  | error e => simp [h, Except.toOption] at hmodel
  | ok m =>
    rw [h, Except.toOption, Option.map_some, Option.some.injEq] at hmodel
    exact ⟨m, rfl, keepsMembers_of_ofDrawing h, hmodel⟩

end Model

end ClassDiagram
