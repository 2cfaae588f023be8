import ClassDiagram.Proofs.Model.Frame

/-!
# Edits by position

An edge is attached to positions of entities, so that what edges make of an entity depends on the
entity and on where it stands.  A model with such an edit (`Model.editEntities`) has the entities of
the old one at their places, so that it attaches edges in the same way as long as the edit keeps
what edges look at (`KeepsHead`), and edits can be put together (`editEntities_editEntities`).
-/

namespace ClassDiagram

/-- The types that entities are, by position. -/
def typesOf (es : List Entity) (i : Nat) : Option TypeExpr :=
  es[i]?.map fun e => .user e.reference

theorem typesOf_congr {es es' : List Entity}
    (h : es.map Entity.reference = es'.map Entity.reference) : typesOf es = typesOf es' := by
  have htypes : ∀ (l : List Entity) (i : Nat),
      typesOf l i = (l.map Entity.reference)[i]?.map TypeExpr.user := by
    intro l i
    rw [List.getElem?_map, Option.map_map]
    rfl
  funext i
  rw [htypes, htypes, h]

/-- An edit at one position is an edit at all of them. -/
theorem modify_eq_mapIdx {α : Type} (l : List α) (i : Nat) (f : α → α) :
    l.modify i f = l.mapIdx fun j a => if i = j then f a else a := by
  apply List.ext_getElem?
  intro j
  rw [List.getElem?_modify, List.getElem?_mapIdx]
  rfl

/-- An edit that keeps all of an entity that edges look at. -/
structure KeepsHead (f : Nat → Entity → Entity) : Prop where
  id_eq : ∀ i e, (f i e).id = e.id
  reference_eq : ∀ i e, (f i e).reference = e.reference
  mutability_eq : ∀ i e, (f i e).mutability = e.mutability

namespace Model

variable {m : Model} {f g : Nat → Entity → Entity}

/-- The model with `f` applied to every entity and its position. -/
def editEntities (m : Model) (f : Nat → Entity → Entity) : Model :=
  m.withEntities (m.entities.mapIdx f)

theorem entities_editEntities : (m.editEntities f).entities = m.entities.mapIdx f := rfl

theorem getElem?_editEntities (i : Nat) :
    (m.editEntities f).entities[i]? = m.entities[i]?.map (f i) := by
  rw [entities_editEntities, List.getElem?_mapIdx]

theorem editEntities_editEntities :
    (m.editEntities f).editEntities g = m.editEntities fun i e => g i (f i e) := by
  refine ext_parts rfl ?_ rfl
  show (m.entities.mapIdx f).mapIdx g = _
  rw [List.mapIdx_mapIdx]
  rfl

/-- What an edit keeps of every entity stays in place. -/
theorem map_entities_editEntities {β : Type} {p : Entity → β} (hp : ∀ i e, p (f i e) = p e) :
    (m.editEntities f).entities.map p = m.entities.map p := by
  apply List.ext_getElem?
  intro i
  rw [List.getElem?_map, List.getElem?_map, getElem?_editEntities, Option.map_map]
  congr 1
  funext e
  exact hp i e

theorem endpoint_editEntities (hf : KeepsHead f) (edge : Node) (handle : UInt64) :
    (m.editEntities f).endpoint edge handle = m.endpoint edge handle :=
  endpoint_congr (map_entities_editEntities hf.id_eq) edge handle

/-- Where ids are kept, an edge stays attached to the same positions. -/
theorem endpoints_editEntities (hf : KeepsHead f) (edge : Node) :
    (m.editEntities f).endpoints edge = m.endpoints edge := by
  simp only [endpoints, endpoint_editEntities hf]

theorem reversedEndpoints_editEntities (hf : KeepsHead f) (edge : Node) :
    (m.editEntities f).reversedEndpoints edge = m.reversedEndpoints edge := by
  simp only [reversedEndpoints, endpoint_editEntities hf]

theorem typeAt?_editEntities (hf : KeepsHead f) : (m.editEntities f).typeAt? = m.typeAt? :=
  typesOf_congr (map_entities_editEntities hf.reference_eq)

end Model

end ClassDiagram
