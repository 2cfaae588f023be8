import ClassDiagram.Proofs.Model.Drawn

/-!
# Entities and the companions made of them

Members that belong to a class and not to its instances stand in an object.  So an entity with such
members that is no object itself is split in two (`Entity.SplitsInto`), and a model is split entity
by entity (`SplitsList`).  This fails just when one of the entities to be split shares its reference
with an object of the model, and the first one of them is the error.  As the new objects are not
split again, and what is left of their entities has no members to give, a model that has been split
stays as it is (`Model.splitCompanions_exact`).
-/

namespace ClassDiagram

/-! ### Entities in two -/

namespace Entity

variable {e i c : Entity}

/-- Some member of the entity belongs to the class and not to its instances. -/
def HasClassMember (e : Entity) : Prop :=
  (∃ a ∈ e.attributes, a.isClassScope = true) ∨ ∃ o ∈ e.operations, o.isClassScope = true

/-- The entity is no object and has members that belong to the class. -/
def IsSplit (e : Entity) : Prop := e.kind ≠ .object ∧ e.HasClassMember

/-- The entity `e` is split into the entity `i`, which keeps the members of the instances, and the
object `c`, which gets those of the class. -/
structure SplitsInto (e i c : Entity) : Prop where
  instances_eq : i = { e with
    attributes := e.attributes.filter fun a => !a.isClassScope
    operations := e.operations.filter fun o => !o.isClassScope
    hasCompanion := true }
  id_eq : c.id = e.id ++ "_companion"
  reference_eq : c.reference = e.reference
  geometry_eq : c.geometry = e.geometry
  kind_eq : c.kind = .object
  isMutable_eq : c.isMutable = false
  isImmutable_eq : c.isImmutable = false
  superclass_eq : c.superclass = none
  mixins_eq : c.mixins = []
  attributes_eq : c.attributes = e.attributes.filter Attribute.isClassScope
  operations_eq : c.operations = e.operations.filter Operation.isClassScope
  hasCompanion_eq : c.hasCompanion = false

theorem hasClassScope_iff : e.hasClassScope = true ↔ e.HasClassMember := by
  simp [hasClassScope, HasClassMember]

theorem needsCompanion_iff : e.needsCompanion = true ↔ e.IsSplit := by
  simp [needsCompanion, IsSplit, isObject, hasClassScope_iff]

theorem splitsInto_companion (e : Entity) : e.SplitsInto e.instancePart e.companion :=
  ⟨rfl, rfl, rfl, rfl, rfl, rfl, rfl, rfl, rfl, rfl, rfl, rfl⟩

theorem SplitsInto.eq_companion (h : e.SplitsInto i c) : i = e.instancePart ∧ c = e.companion := by
  refine ⟨h.instances_eq, ?_⟩
  cases c
  unfold companion
  rw [Entity.mk.injEq]
  exact ⟨h.id_eq, h.reference_eq, h.geometry_eq, h.kind_eq, h.isMutable_eq, h.isImmutable_eq,
    h.superclass_eq, h.mixins_eq, h.attributes_eq, h.operations_eq, h.hasCompanion_eq⟩

theorem withCompanion_of_not_isSplit (h : ¬ e.IsSplit) : e.withCompanion = [e] := by
  rw [withCompanion, if_neg (needsCompanion_iff.not.2 h)]

theorem withCompanion_of_isSplit (h : e.IsSplit) :
    e.withCompanion = [e.instancePart, e.companion] := by
  rw [withCompanion, if_pos (needsCompanion_iff.2 h)]

theorem not_hasClassMember_instancePart (e : Entity) : ¬ e.instancePart.HasClassMember := by
  rintro (⟨a, ha, hscope⟩ | ⟨o, ho, hscope⟩)
  · obtain ⟨-, hnot⟩ := List.mem_filter.1 ha
    simp [hscope] at hnot
  · obtain ⟨-, hnot⟩ := List.mem_filter.1 ho
    simp [hscope] at hnot

/-- Neither an entity that need not be split nor the two halves of one that is are split again. -/
theorem not_isSplit_of_mem_withCompanion {x : Entity} (hx : x ∈ e.withCompanion) :
    ¬ x.IsSplit := by
  by_cases he : e.IsSplit
  · rw [withCompanion_of_isSplit he] at hx
    rcases List.mem_cons.1 hx with rfl | hx
    · exact fun h => e.not_hasClassMember_instancePart h.2
    · obtain rfl := List.mem_singleton.1 hx
      exact fun h => h.1 rfl
  · rw [withCompanion_of_not_isSplit he] at hx
    obtain rfl := List.mem_singleton.1 hx
    exact he

end Entity

/-! ### Lists of entities -/

/-- The second list has the entities of the first one in order, those with members to give in
two. -/
inductive SplitsList : List Entity → List Entity → Prop
  | nil : SplitsList [] []
  | whole {e : Entity} {es es' : List Entity} (h : ¬ e.IsSplit) (hrest : SplitsList es es') :
      SplitsList (e :: es) (e :: es')
  | halves {e i c : Entity} {es es' : List Entity} (h : e.IsSplit) (hsplit : e.SplitsInto i c)
      (hrest : SplitsList es es') : SplitsList (e :: es) (i :: c :: es')

theorem splitsList_iff {es es' : List Entity} :
    SplitsList es es' ↔ es' = es.flatMap Entity.withCompanion := by
  constructor
  · intro h
    induction h with
    | nil => rfl
    | whole h _ ih =>
      rw [List.flatMap_cons, Entity.withCompanion_of_not_isSplit h, ih, List.singleton_append]
    | halves h hsplit _ ih =>
      obtain ⟨rfl, rfl⟩ := hsplit.eq_companion
      rw [List.flatMap_cons, Entity.withCompanion_of_isSplit h, ih, List.cons_append,
        List.singleton_append]
  · rintro rfl
    induction es with
    | nil => exact .nil
    | cons e es ih =>
      rw [List.flatMap_cons]
      by_cases h : e.IsSplit
      · rw [Entity.withCompanion_of_isSplit h]
        exact .halves h e.splitsInto_companion ih
      · rw [Entity.withCompanion_of_not_isSplit h]
        exact .whole h ih

/-- Entities of which none is split are left. -/
theorem flatMap_withCompanion_eq_self {es : List Entity} (h : ∀ e ∈ es, ¬ e.IsSplit) :
    es.flatMap Entity.withCompanion = es := by
  symm
  rw [← splitsList_iff]
  induction es with
  | nil => exact .nil
  | cons e es ih =>
    obtain ⟨he, hes⟩ := List.forall_mem_cons.1 h
    exact .whole he (ih hes)

/-! ### Models -/

namespace Model

variable {m n : Model} {e : Entity}

/-- The entity is to be split, and an object of the model has its reference already. -/
def Clashes (m : Model) (e : Entity) : Prop :=
  e.IsSplit ∧ ∃ o ∈ m.entities, o.kind = .object ∧ o.reference = e.reference

/-- The entity is the first one of the model that clashes with an object. -/
def FirstClash (m : Model) (e : Entity) : Prop :=
  m.Clashes e ∧ ∃ before after, m.entities = before ++ e :: after ∧ ∀ x ∈ before, ¬ m.Clashes x

/-- The model `n` is the model `m` with its entities split. -/
structure SplitsModel (m n : Model) : Prop where
  packages_eq : n.packages = m.packages
  imports_eq : n.imports = m.imports
  entities : SplitsList m.entities n.entities

theorem clashes_iff :
    (e.needsCompanion && hasObject m.entities e.reference) = true ↔ m.Clashes e := by
  simp [Clashes, Entity.needsCompanion_iff, hasObject_eq_true_iff, Entity.isObject]

theorem firstClash_iff :
    (m.entities.find? fun x => x.needsCompanion && hasObject m.entities x.reference) = some e ↔
      m.FirstClash e := by
  rw [List.find?_eq_some_iff_append]
  simp only [clashes_iff, Bool.not_eq_true', ← Bool.not_eq_true]
  rfl

theorem splitsModel_iff :
    m.SplitsModel n ↔ n = m.withEntities (m.entities.flatMap Entity.withCompanion) := by
  constructor
  · rintro ⟨hpackages, himports, hentities⟩
    exact ext_parts hpackages (splitsList_iff.1 hentities) himports
  · rintro rfl
    exact ⟨rfl, rfl, splitsList_iff.2 rfl⟩

/-- Splitting fails at the first entity that clashes, and only there. -/
theorem splitCompanions_eq_error_iff {err : ModelError} :
    m.splitCompanions = .error err ↔ ∃ e, m.FirstClash e ∧ err = .companionExists e.reference := by
  simp only [← firstClash_iff, splitCompanions]
  cases m.entities.find? fun x => x.needsCompanion && hasObject m.entities x.reference with
  | some e => simp [eq_comm (a := err)]
  | none => simp

theorem splitCompanions_eq_ok_iff_splitsModel :
    m.splitCompanions = .ok n ↔ (∀ e ∈ m.entities, ¬ m.Clashes e) ∧ m.SplitsModel n := by
  rw [splitCompanions_eq_ok_iff, splitsModel_iff]
  simp only [← clashes_iff, Bool.and_eq_true, not_and, Bool.not_eq_true]

theorem not_isSplit_of_splitCompanions (h : m.splitCompanions = .ok n) (he : e ∈ n.entities) :
    ¬ e.IsSplit := by
  obtain ⟨-, rfl⟩ := splitCompanions_eq_ok_iff.1 h
  obtain ⟨x, -, hx⟩ := List.mem_flatMap.1 he
  exact Entity.not_isSplit_of_mem_withCompanion hx

/-- Nothing is left to be split in a model that has been split. -/
theorem splitCompanions_of_splitCompanions (h : m.splitCompanions = .ok n) :
    n.splitCompanions = .ok n := by
  have hwhole : ∀ e ∈ n.entities, ¬ e.IsSplit := fun e => not_isSplit_of_splitCompanions h
  refine splitCompanions_eq_ok_iff.2 ⟨?_, ?_⟩
  · intro e he hneeds
    exact absurd (Entity.needsCompanion_iff.1 hneeds) (hwhole e he)
  · rw [flatMap_withCompanion_eq_self hwhole]
    exact ext_parts rfl rfl rfl

/-- Companions are made unless an entity that is to be split shares its reference with an object,
and the first such entity is the error.  The entities are then split and all else is left; no member
of a class stands outside an object any more, and to make companions once more changes nothing. -/
theorem splitCompanions_exact (m : Model) :
    (∀ err, m.splitCompanions = .error err ↔
        ∃ e, m.FirstClash e ∧ err = .companionExists e.reference) ∧
      ((∃ n, m.splitCompanions = .ok n) ↔ ∀ e ∈ m.entities, ¬ m.Clashes e) ∧
      ∀ n, (m.splitCompanions = .ok n ↔
          (∀ e ∈ m.entities, ¬ m.Clashes e) ∧ m.SplitsModel n) ∧
        (m.splitCompanions = .ok n →
          (∀ e ∈ n.entities, e.kind ≠ .object → ¬ e.HasClassMember) ∧
            n.splitCompanions = .ok n) := by
  refine ⟨fun err => splitCompanions_eq_error_iff, ?_, fun n =>
    ⟨splitCompanions_eq_ok_iff_splitsModel, fun h => ⟨?_, splitCompanions_of_splitCompanions h⟩⟩⟩
  · simp only [splitCompanions_eq_ok_iff_splitsModel, splitsModel_iff, exists_and_left, exists_eq,
      and_true]
  · intro e he hkind hmember
    exact not_isSplit_of_splitCompanions h he ⟨hkind, hmember⟩

end Model

end ClassDiagram
