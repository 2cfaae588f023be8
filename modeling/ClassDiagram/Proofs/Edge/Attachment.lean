import ClassDiagram.Proofs.Edge.Position

/-!
# Where edges are attached

A handle of an edge names the id of an object, and it is attached to the first entity of that id
(`Model.Attached`).  Entities are found for both handles just when both are attached
(`Model.exists_endpoints_iff`), and a stage may look for them at some of the edges only
(`Model.ReadsEndsOf`).  A stage that reads edges changes every entity at its position and leaves the
rest of the model alone (`Model.Becomes`); where the change of every entity is determined, so is the
model (`Model.becomes_iff`, `Model.eq_ok_iff_becomes_of_edits`).
-/

namespace ClassDiagram

namespace Model

variable {m n : Model} {edge : Node} {handle : UInt64} {i j : Nat} {d e : Entity}

/-! ### Handles -/

/-- The handle of the edge is attached to the entity `e` at the position `i`, the first one of the
id that the connection names. -/
structure Attached (m : Model) (edge : Node) (handle : UInt64) (i : Nat) (e : Entity) : Prop where
  getElem? : m.entities[i]? = some e
  target : edge.connectionTarget handle = .ok e.id
  first : ∀ j < i, ∀ f, m.entities[j]? = some f → f.id ≠ e.id

/-- The handle of the edge is attached to the entity at the position `i`. -/
def AttachedAt (m : Model) (edge : Node) (handle : UInt64) (i : Nat) : Prop :=
  ∃ e, m.Attached edge handle i e

/-- The handle of the edge is attached to an entity of the type `t`. -/
def AttachedType (m : Model) (edge : Node) (handle : UInt64) (t : TypeExpr) : Prop :=
  ∃ i e, m.Attached edge handle i e ∧ t = .user e.reference

/-- Both handles of the edge are attached to entities. -/
def Connected (m : Model) (edge : Node) : Prop :=
  (∃ i, m.AttachedAt edge 0 i) ∧ ∃ i, m.AttachedAt edge 1 i

theorem attachedAt_iff : m.AttachedAt edge handle i ↔ m.endpoint edge handle = .ok i := by
  simp only [endpoint_eq_ok_iff, position?_eq_some_iff]
  constructor
  · rintro ⟨e, he, htarget, hfirst⟩
    exact ⟨e.id, htarget, e, he, rfl, hfirst⟩
  · rintro ⟨_, htarget, e, he, rfl, hfirst⟩
    exact ⟨e, he, htarget, hfirst⟩

theorem attached_iff :
    m.Attached edge handle i e ↔ m.endpoint edge handle = .ok i ∧ m.entities[i]? = some e := by
  rw [← attachedAt_iff]
  constructor
  · intro h
    exact ⟨⟨e, h⟩, h.getElem?⟩
  · rintro ⟨⟨d, hd⟩, he⟩
    obtain rfl := Option.some.inj (hd.getElem?.symm.trans he)
    exact hd

instance : Decidable (m.AttachedAt edge handle i) :=
  decidable_of_iff _ attachedAt_iff.symm

/-- A handle is attached to one entity at most. -/
theorem Attached.unique (hd : m.Attached edge handle i d) (he : m.Attached edge handle j e) :
    i = j ∧ d = e := by
  obtain ⟨hi, hd⟩ := attached_iff.1 hd
  obtain ⟨hj, he⟩ := attached_iff.1 he
  obtain rfl := Except.ok.inj (hi.symm.trans hj)
  exact ⟨rfl, Option.some.inj (hd.symm.trans he)⟩

theorem exists_endpoints_iff : (∃ x, m.endpoints edge = .ok x) ↔ m.Connected edge := by
  simp only [endpoints_eq_ok_iff, Connected, attachedAt_iff]
  constructor
  · rintro ⟨x, hsource, htarget⟩
    exact ⟨⟨_, hsource⟩, _, htarget⟩
  · rintro ⟨⟨source, hsource⟩, target, htarget⟩
    exact ⟨⟨source, target⟩, hsource, htarget⟩

theorem exists_reversedEndpoints_iff :
    (∃ x, m.reversedEndpoints edge = .ok x) ↔ m.Connected edge := by
  simp only [reversedEndpoints_eq_ok_iff, Connected, attachedAt_iff]
  constructor
  · rintro ⟨x, hsource, htarget⟩
    exact ⟨⟨_, htarget⟩, _, hsource⟩
  · rintro ⟨⟨target, htarget⟩, source, hsource⟩
    exact ⟨⟨source, target⟩, hsource, htarget⟩

theorem typeAt?_eq_some_iff (hj : m.endpoint edge handle = .ok j) {t : TypeExpr} :
    m.typeAt? j = some t ↔ m.AttachedType edge handle t := by
  simp only [AttachedType, attached_iff, hj, Except.ok.injEq, typeAt?, Option.map_eq_some_iff]
  constructor
  · rintro ⟨e, he, rfl⟩
    exact ⟨j, e, ⟨rfl, he⟩, rfl⟩
  · rintro ⟨_, e, ⟨rfl, he⟩, rfl⟩
    exact ⟨e, he, rfl⟩

/-- A handle is attached to one type at most. -/
theorem rightUnique_attachedType (m : Model) (handle : UInt64) :
    Relator.RightUnique fun edge t => m.AttachedType edge handle t := by
  rintro edge t t' ⟨i, d, hd, rfl⟩ ⟨j, e, he, rfl⟩
  rw [(hd.unique he).2]

/-! ### Edges that are looked at -/

/-- The stereotypes of all the edges can be read, and those edges that `p` holds of connect
entities. -/
def ConnectsThose (m : Model) (p : Node → Prop) (edges : List Node) : Prop :=
  ∀ edge ∈ edges, (∃ s, edge.edgeStereotype = .ok s) ∧ (p edge → m.Connected edge)

/-- Once its stereotype is read, the ends of an edge are looked for just when `p` holds of it. -/
def ReadsEndsOf (p : Node → Prop) [DecidablePred p] (ends : Node → Except ModelError Endpoints)
    (read : Node → Except ModelError (Option Endpoints)) : Prop :=
  ∀ edge x, read edge = .ok x ↔ (∃ s, edge.edgeStereotype = .ok s) ∧
    if p edge then ∃ y, ends edge = .ok y ∧ x = some y else x = none

namespace ReadsEndsOf

variable {p : Node → Prop} [DecidablePred p] {ends : Node → Except ModelError Endpoints}
  {read : Node → Except ModelError (Option Endpoints)} {edges : List Node}
  (h : ReadsEndsOf p ends read)

include h

theorem exists_forall₂_iff (hends : ∀ edge, (∃ x, ends edge = .ok x) ↔ m.Connected edge) :
    (∃ xs, List.Forall₂ (fun edge x => read edge = .ok x) edges xs) ↔ m.ConnectsThose p edges := by
  rw [ClassDiagram.exists_forall₂_iff, ConnectsThose]
  refine forall₂_congr fun edge _ => ?_
  simp only [h edge, exists_and_left, ← hends]
  refine and_congr_right fun _ => ?_
  by_cases hp : p edge
  · simp [hp]
  · simp [hp]

/-- The ends that have been found are those of the edges that are looked at. -/
theorem forall₂_filter {xs : List (Option Endpoints)}
    (hxs : List.Forall₂ (fun edge x => read edge = .ok x) edges xs) :
    List.Forall₂ (fun edge y => ends edge = .ok y) (edges.filter p) (xs.filterMap id) := by
  refine forall₂_filter_filterMap hxs ?_
  intro edge x hx
  obtain ⟨-, hx⟩ := (h edge x).1 hx
  by_cases hp : p edge
  · rw [if_pos hp] at hx
    obtain ⟨y, hy, rfl⟩ := hx
    rw [if_pos (decide_eq_true hp)]
    exact ⟨y, rfl, hy⟩
  · rw [if_neg hp] at hx
    rw [if_neg (by simpa using hp)]
    exact hx

end ReadsEndsOf

/-! ### Changes by position -/

/-- The entities of the model `n` are those of `m`, each changed at its position as `R` says, and
nothing else is changed. -/
structure Becomes (m : Model) (R : Nat → Entity → Entity → Prop) (n : Model) : Prop where
  packages_eq : n.packages = m.packages
  imports_eq : n.imports = m.imports
  length_eq : n.entities.length = m.entities.length
  changes : ∀ i d e, m.entities[i]? = some d → n.entities[i]? = some e → R i d e

theorem becomes_iff {R : Nat → Entity → Entity → Prop} {f : Nat → Entity → Entity}
    (hR : ∀ i d e, m.entities[i]? = some d → (R i d e ↔ e = f i d)) :
    m.Becomes R n ↔ n = m.editEntities f := by
  constructor
  · rintro ⟨hpackages, himports, hlength, hchanges⟩
    refine ext_parts hpackages (List.ext_getElem? fun i => ?_) himports
    rw [getElem?_editEntities]
    cases hd : m.entities[i]? with
    | none =>
      rw [List.getElem?_eq_none_iff] at hd
      rw [Option.map_none, List.getElem?_eq_none_iff, hlength]
      exact hd
    | some d =>
      have hi : i < n.entities.length := hlength ▸ (List.getElem?_eq_some_iff.1 hd).1
      have he := List.getElem?_eq_getElem hi
      rw [he, (hR i d _ hd).1 (hchanges i d _ hd he), Option.map_some]
  · rintro rfl
    refine ⟨rfl, rfl, List.length_mapIdx, ?_⟩
    intro i d e hd he
    rw [getElem?_editEntities, hd, Option.map_some] at he
    exact (hR i d e hd).2 (Option.some.inj he).symm

/-! ### Stages that edit -/

section Stage

variable {α : Type} {stage : Except ModelError Model} {found : α → Prop}
  {f : α → Nat → Entity → Entity}

/-- A stage that edits the entities as what it has found says succeeds just when it finds
something. -/
theorem exists_eq_ok_iff_of_edits
    (hstage : ∀ n, stage = .ok n ↔ ∃ a, found a ∧ n = m.editEntities (f a)) :
    (∃ n, stage = .ok n) ↔ ∃ a, found a := by
  simp only [hstage]
  constructor
  · rintro ⟨n, a, ha, -⟩
    exact ⟨a, ha⟩
  · rintro ⟨a, ha⟩
    exact ⟨_, a, ha, rfl⟩

/-- Where `R` says of every entity what the stage makes of it, the result is the model that `R`
leads to. -/
theorem eq_ok_iff_becomes_of_edits {R : Nat → Entity → Entity → Prop}
    (hstage : ∀ n, stage = .ok n ↔ ∃ a, found a ∧ n = m.editEntities (f a))
    (hR : ∀ a, found a → ∀ i d e, m.entities[i]? = some d → (R i d e ↔ e = f a i d)) :
    stage = .ok n ↔ (∃ a, found a) ∧ m.Becomes R n := by
  rw [hstage]
  constructor
  · rintro ⟨a, ha, hn⟩
    exact ⟨⟨a, ha⟩, (becomes_iff (hR a ha)).2 hn⟩
  · rintro ⟨⟨a, ha⟩, hn⟩
    exact ⟨a, ha, (becomes_iff (hR a ha)).1 hn⟩

end Stage

end Model

end ClassDiagram
