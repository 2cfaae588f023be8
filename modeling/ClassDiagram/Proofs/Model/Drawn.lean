import ClassDiagram.Proofs.Model.Frame
import ClassDiagram.Proofs.Reading.Class

/-!
# What a drawing spells out

Before its edges are read, the model of a drawing has one or two entities for each class object, in
the order of the objects: the entity that is read from the object, in its package, or the two halves
of it (`exists_spells_of_entitiesOfDrawing`).
-/

namespace ClassDiagram

namespace Entity

/-! ### Packages and companions -/

section ReadFrom

variable {c : Node} {e : Entity} (h : e.ReadFrom c)

include h

theorem ReadFrom.withPackage (package : String) : (e.withPackage package).ReadFrom c :=
  ⟨h.id_eq, h.name_eq, h.geometry_eq, h.stereotypes_eq, h.superclass_eq, h.mixins_eq,
    h.attributes, h.operations⟩

theorem ReadFrom.withMark (hasCompanion : Bool) :
    Entity.ReadFrom c { e with hasCompanion } :=
  ⟨h.id_eq, h.name_eq, h.geometry_eq, h.stereotypes_eq, h.superclass_eq, h.mixins_eq,
    h.attributes, h.operations⟩

end ReadFrom

theorem eq_or_eq_of_mem_withCompanion {d e : Entity} (h : e ∈ d.withCompanion) :
    e = d ∨ e = d.instancePart ∨ e = d.companion := by
  unfold withCompanion at h
  split at h
  · rcases List.mem_cons.1 h with rfl | h
    · exact .inr (.inl rfl)
    · exact .inr (.inr (List.mem_singleton.1 h))
  · exact .inl (List.mem_singleton.1 h)

end Entity

namespace Model

variable {drawing : Node} {imports : ImportTable} {m n : Model}

theorem packages_of_readAll {packages : List Package}
    (h : (Package.readAll drawing).result = .ok packages) :
    List.Forall₂ (fun n p => Package.read n = .ok p) drawing.packageObjects packages := by
  rw [Package.readAll, Traced.result_enter_bind] at h
  exact mapM_eq_ok_iff.1 (mapError_eq_ok_iff.1 h)

theorem readFrom_of_readAll {entities : List Entity}
    (h : (Entity.readAll drawing).result = .ok entities) :
    List.Forall₂ Entity.ReadFrom (drawing.query "object" "UML - Class") entities := by
  rw [Entity.readAll, Traced.result_enter_bind, Traced.result_mapM_eq_ok_iff] at h
  exact h.imp fun _ _ => Entity.readFrom_of_read

theorem hasObject_map {f : Entity → Entity} (hkind : ∀ e, (f e).kind = e.kind)
    (hreference : ∀ e, (f e).reference = e.reference) (es : List Entity) (r : EntityRef) :
    hasObject (es.map f) r = hasObject es r := by
  unfold hasObject Entity.isObject
  rw [List.any_map]
  simp only [Function.comp_def, hkind, hreference]

theorem hasObject_eq_true_iff {es : List Entity} {r : EntityRef} :
    hasObject es r = true ↔ ∃ e ∈ es, e.isObject = true ∧ e.reference = r := by
  simp [hasObject]

/-- After marking, every class that shares its reference with an object has a companion. -/
theorem hasCompanion_of_mem_markCompanions {e : Entity} (he : e ∈ m.markCompanions.entities)
    (hkind : e.kind = .cls) (hobject : hasObject m.markCompanions.entities e.reference = true) :
    e.hasCompanion = true := by
  obtain ⟨e₀, he₀, rfl⟩ := List.mem_map.1 he
  -- Marking changes neither the kinds nor the references by which objects are found.
  have hsame : hasObject m.markCompanions.entities = hasObject m.entities := by
    funext r
    apply hasObject_map
    · intro e
      split <;> rfl
    · intro e
      split <;> rfl
  rw [hsame] at hobject
  by_cases hmark : e₀.kind = .cls ∧ hasObject m.entities e₀.reference
  · rw [if_pos hmark]
  · rw [if_neg hmark] at hkind hobject
    exact absurd ⟨hkind, hobject⟩ hmark

/-- Companions are made just when none of the entities that need one shares its reference with an
object. -/
theorem splitCompanions_eq_ok_iff : m.splitCompanions = .ok n ↔
    (∀ e ∈ m.entities, e.needsCompanion = true → hasObject m.entities e.reference = false) ∧
      n = m.withEntities (m.entities.flatMap Entity.withCompanion) := by
  have hfree : (m.entities.find? fun e => e.needsCompanion && hasObject m.entities e.reference) =
      none ↔
      ∀ e ∈ m.entities, e.needsCompanion = true → hasObject m.entities e.reference = false := by
    simp
  rw [splitCompanions, ← hfree]
  cases m.entities.find? fun e => e.needsCompanion && hasObject m.entities e.reference with
  | some e => simp
  | none => simp [eq_comm (a := n)]

/-- The entities `es` are read from the class objects of a drawing, each in its package and, if it
is a class that shares its reference with an object, marked to have a companion.  The model `m` has
them together with the companions that they need, none of which shares its reference with one of the
objects. -/
structure Spells (drawing : Node) (es : List Entity) (m : Model) : Prop where
  packages : List.Forall₂ (fun n p => Package.read n = .ok p) drawing.packageObjects m.packages
  readFrom : List.Forall₂ Entity.ReadFrom (drawing.query "object" "UML - Class") es
  package_eq : ∀ e ∈ es, e.package = packageAround m.packages e.geometry
  marked : ∀ e ∈ es, e.kind = .cls → hasObject es e.reference = true → e.hasCompanion = true
  free : ∀ e ∈ es, e.needsCompanion = true → hasObject es e.reference = false
  entities_eq : m.entities = es.flatMap Entity.withCompanion

theorem exists_spells_of_entitiesOfDrawing
    (h : (entitiesOfDrawing drawing imports).result = .ok m) : ∃ es, Spells drawing es m := by
  rw [entitiesOfDrawing, Traced.result_bind_eq_ok_iff] at h
  obtain ⟨packages, hpackages, h⟩ := h
  obtain ⟨entities, hentities, h⟩ := Traced.result_bind_eq_ok_iff.1 h
  obtain ⟨m₁, h₁, h⟩ := Traced.result_bind_eq_ok_iff.1 h
  obtain ⟨m₂, h₂, h⟩ := Traced.result_bind_eq_ok_iff.1 h
  cases h₁
  cases h₂
  obtain ⟨hfree, rfl⟩ := splitCompanions_eq_ok_iff.1 h
  refine ⟨_, packages_of_readAll hpackages, ?_, ?_,
    fun e he => hasCompanion_of_mem_markCompanions he, hfree, rfl⟩
  · show List.Forall₂ _ _ ((entities.map _).map _)
    rw [List.map_map, List.forall₂_map_right_iff]
    refine (readFrom_of_readAll hentities).imp ?_
    intro c e he
    rw [Function.comp_apply]
    split
    · exact (he.withPackage _).withMark true
    · exact he.withPackage _
  · intro e he
    obtain ⟨placed, hplaced, rfl⟩ := List.mem_map.1 he
    obtain ⟨d, -, rfl⟩ := List.mem_map.1 hplaced
    split
    · rfl
    · rfl

/-- The packages are those of the package objects, and the entities those of the class objects, in
their packages and with their companions. -/
theorem exists_of_entitiesOfDrawing (h : (entitiesOfDrawing drawing imports).result = .ok m) :
    List.Forall₂ (fun n p => Package.read n = .ok p) drawing.packageObjects m.packages ∧
      ∃ es, List.Forall₂ Entity.ReadFrom (drawing.query "object" "UML - Class") es ∧
        (∀ e ∈ es, e.package = packageAround m.packages e.geometry) ∧
        m.entities = es.flatMap Entity.withCompanion := by
  obtain ⟨es, hes⟩ := exists_spells_of_entitiesOfDrawing h
  exact ⟨hes.packages, es, hes.readFrom, hes.package_eq, hes.entities_eq⟩

/-- Every entity comes from a class object. -/
theorem exists_readFrom_of_mem (h : (entitiesOfDrawing drawing imports).result = .ok m) {e : Entity}
    (he : e ∈ m.entities) :
    ∃ c d, Entity.ReadFrom c d ∧ d.package = packageAround m.packages d.geometry ∧
      e ∈ d.withCompanion := by
  obtain ⟨-, es, hes, hpackage, hentities⟩ := exists_of_entitiesOfDrawing h
  rw [hentities] at he
  obtain ⟨d, hd, he⟩ := List.mem_flatMap.1 he
  obtain ⟨c, -, hc⟩ := exists_of_forall₂_right hes hd
  exact ⟨c, d, hc, hpackage d hd, he⟩

end Model

end ClassDiagram
