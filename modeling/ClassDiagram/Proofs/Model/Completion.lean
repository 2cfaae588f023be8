import ClassDiagram.Proofs.Edge.Outcome
import ClassDiagram.Proofs.Model.Drawn
import ClassDiagram.Proofs.Model.Overrides

/-!
# From the drawn entities to the model

A model has the entities that a drawing spells out, at their places: each of them is edited by the
edges and finished (`exists_completion_of_ofDrawing`).  What edits and finishing leave alone can be
read off the drawn entities (`Completes.map_entities_eq`).
-/

namespace ClassDiagram

namespace Model

variable {drawing : Node} {imports : ImportTable} {d m : Model} {r : EdgeReading}

/-- The model `m` is what the drawn entities of `d` become by the edges that `r` has read. -/
structure Completes (d : Model) (drawing : Node) (r : EdgeReading) (m : Model) : Prop where
  reads : d.Reads drawing r
  marked : (d.editEntities (r.applyAt d.typeAt?)).qualifyReferences.markOverrides = .ok m

theorem exists_completion_of_ofDrawing (h : (ofDrawing drawing imports).result = .ok m) :
    ∃ d r, (entitiesOfDrawing drawing imports).result = .ok d ∧ d.Completes drawing r m ∧
      m.diagnostics = [] := by
  obtain ⟨d, m₁, hd, hedges, hmarked, hdiagnostics⟩ := ofDrawing_eq_ok_iff.1 h
  obtain ⟨r, hreads, rfl⟩ := exists_reading_of_resolveEdges hedges
  exact ⟨d, r, hd, ⟨hreads, hmarked⟩, hdiagnostics⟩

namespace Completes

variable (h : d.Completes drawing r m)

include h

theorem packages_eq : m.packages = d.packages :=
  (sameFrame_of_markOverrides h.marked).packages_eq

/-- An entity of the finished model, by position. -/
theorem exists_finished {i : Nat} {e : Entity} (he : d.entities[i]? = some e) :
    ∃ e', m.entities[i]? = some e' ∧ m.Finished (r.applyAt d.typeAt? i e) e' := by
  apply exists_getElem?_of_forall₂ (forall₂_finished h.marked)
  rw [getElem?_editEntities, he, Option.map_some]

theorem length_entities : m.entities.length = d.entities.length := by
  rw [← (forall₂_finished h.marked).length_eq, entities_editEntities, List.length_mapIdx]

/-- Every entity of the finished model has been drawn at its position. -/
theorem exists_drawn {i : Nat} {e' : Entity} (he' : m.entities[i]? = some e') :
    ∃ e, d.entities[i]? = some e ∧ m.Finished (r.applyAt d.typeAt? i e) e' := by
  obtain ⟨hi, -⟩ := List.getElem?_eq_some_iff.1 he'
  rw [h.length_entities] at hi
  have he := List.getElem?_eq_getElem hi
  obtain ⟨e'', he'', hfinished⟩ := h.exists_finished he
  obtain rfl : e' = e'' := Option.some.inj (he'.symm.trans he'')
  exact ⟨_, he, hfinished⟩

theorem exists_drawn_of_mem {e' : Entity} (he' : e' ∈ m.entities) :
    ∃ i, ∃ e ∈ d.entities, m.Finished (r.applyAt d.typeAt? i e) e' := by
  obtain ⟨i, hi⟩ := List.mem_iff_getElem?.1 he'
  obtain ⟨e, he, hfinished⟩ := h.exists_drawn hi
  exact ⟨i, e, List.mem_of_getElem? he, hfinished⟩

/-- What neither edges nor finishing change is as it was drawn. -/
theorem map_entities_eq {β : Type} {p : Entity → β}
    (hedges : ∀ i e, p (r.applyAt d.typeAt? i e) = p e)
    (hfinished : ∀ e e', m.Finished e e' → p e = p e') :
    m.entities.map p = d.entities.map p := by
  rw [← map_eq_of_forall₂ (forall₂_finished h.marked) hfinished]
  exact map_entities_editEntities hedges

theorem ids_eq : m.entities.map Entity.id = d.entities.map Entity.id :=
  h.map_entities_eq (fun _ _ => rfl) fun _ _ he => he.id_eq

theorem references_eq : m.entities.map Entity.reference = d.entities.map Entity.reference :=
  h.map_entities_eq (fun _ _ => rfl) fun _ _ he => he.reference_eq

theorem endpoint_eq (edge : Node) (handle : UInt64) :
    m.endpoint edge handle = d.endpoint edge handle :=
  endpoint_congr h.ids_eq edge handle

theorem typeAt?_eq : m.typeAt? = d.typeAt? :=
  typesOf_congr h.references_eq

end Completes

end Model

end ClassDiagram
