import ClassDiagram.Proofs.Model.AssociationTypes
import ClassDiagram.Proofs.Model.Completion

/-!
# The hierarchy of a model

Superclasses and mixins are copied by value when edges are read, and looked up by reference when
overriding members are sought.  As no later stage changes a reference, they always name entities of
the model, and as the search has ended for every entity, no line of superclasses comes back to a
reference on it (`hierarchy_of_ofDrawing`).
-/

namespace ClassDiagram

namespace Model

variable {drawing : Node} {imports : ImportTable} {d m : Model} {r : EdgeReading}

/-! ### Superclasses and mixins -/

/-- No class object is drawn with a superclass or with mixins. -/
theorem superclass_and_mixins_of_mem (hd : (entitiesOfDrawing drawing imports).result = .ok d)
    {e : Entity} (he : e ∈ d.entities) : e.superclass = none ∧ e.mixins = [] := by
  obtain ⟨c, e₀, hc, -, he⟩ := exists_readFrom_of_mem hd he
  rcases Entity.eq_or_eq_of_mem_withCompanion he with rfl | rfl | rfl
  · exact ⟨hc.superclass_eq, hc.mixins_eq⟩
  · exact ⟨hc.superclass_eq, hc.mixins_eq⟩
  · exact ⟨rfl, rfl⟩

theorem exists_mem_of_typeAt? {i : Nat} {t : TypeExpr} (h : m.typeAt? i = some t) :
    ∃ e ∈ m.entities, t = .user e.reference := by
  obtain ⟨e, he, rfl⟩ := Option.map_eq_some_iff.1 h
  exact ⟨e, List.mem_of_getElem? he, rfl⟩

namespace Completes

variable (h : d.Completes drawing r m) (hd : (entitiesOfDrawing drawing imports).result = .ok d)

include h hd

theorem superclass_eq {i : Nat} {e : Entity} (he : m.entities[i]? = some e) :
    e.superclass = superclassAt m.typeAt? r.generalizations i := by
  obtain ⟨e₀, he₀, ancestors, rfl⟩ := h.exists_drawn he
  obtain ⟨hsuperclass, -⟩ := superclass_and_mixins_of_mem hd (List.mem_of_getElem? he₀)
  show (superclassAt d.typeAt? r.generalizations i).or e₀.superclass = _
  rw [hsuperclass, Option.or_none, h.typeAt?_eq]

theorem mixins_eq {i : Nat} {e : Entity} (he : m.entities[i]? = some e) :
    e.mixins = mixinsAt m.typeAt? r.realizations i := by
  obtain ⟨e₀, he₀, ancestors, rfl⟩ := h.exists_drawn he
  obtain ⟨-, hmixins⟩ := superclass_and_mixins_of_mem hd (List.mem_of_getElem? he₀)
  show e₀.mixins ++ mixinsAt d.typeAt? r.realizations i = _
  rw [hmixins, List.nil_append, h.typeAt?_eq]

omit hd in
/-- The generalizations of a drawing that start from a position. -/
theorem countP_generalizations (i : Nat) :
    ((drawing.query "object" "UML - Generalization").countP fun edge =>
      m.endpoint edge 1 = .ok i) = (r.generalizations.map Endpoints.source).count i := by
  -- The handle 1 of an edge is at the source that the edge is read with.
  have hends : (drawing.query "object" "UML - Generalization").map (fun edge => m.endpoint edge 1) =
      r.generalizations.map fun x => .ok x.source := by
    apply map_eq_of_forall₂ h.reads.generalizations
    intro edge x hx
    rw [h.endpoint_eq, (reversedEndpoints_eq_ok_iff.1 hx).1]
  calc
    _ = ((drawing.query "object" "UML - Generalization").map fun edge =>
          m.endpoint edge 1).countP (· = .ok i) := by
      rw [List.countP_map]
      rfl
    _ = (r.generalizations.map fun x => (.ok x.source : Except ModelError Nat)).countP
          (· = .ok i) := by rw [hends]
    _ = (r.generalizations.map Endpoints.source).count i := by
      rw [List.count, List.countP_map, List.countP_map]
      apply List.countP_congr
      intro x _
      simp

end Completes

/-! ### Soundness -/

/-- A model whose superclasses and mixins are entities of it, in which one generalization leads from
every entity with a superclass and none from the others, and whose lines of superclasses end. -/
structure HierarchySound (drawing : Node) (m : Model) : Prop where
  superclass : ∀ e ∈ m.entities, ∀ t ∈ e.superclass, ∃ p ∈ m.entities, t = .user p.reference
  mixins : ∀ e ∈ m.entities, ∀ t ∈ e.mixins, ∃ p ∈ m.entities, t = .user p.reference
  generalizations : ∀ i e, m.entities[i]? = some e →
    ((drawing.query "object" "UML - Generalization").countP fun edge =>
      m.endpoint edge 1 = .ok i) = if e.superclass.isSome then 1 else 0
  lineage : ∀ e ∈ m.entities, ∃ line, m.Lineage e line ∧ (line.map Entity.reference).Nodup ∧
    line.length ≤ m.entities.length

theorem isSome_superclassAt {m : Model} {ends : List Endpoints}
    (hends : ∀ x ∈ ends, x.Within m.entities) (i : Nat) :
    (superclassAt m.typeAt? ends i).isSome = decide (i ∈ ends.map Endpoints.source) := by
  induction ends with
  | nil => rfl
  | cons x ends ih =>
    obtain ⟨hx, hends⟩ := List.forall_mem_cons.1 hends
    have htarget := List.getElem?_eq_getElem hx.2
    rw [superclassAt_cons, List.map_cons]
    by_cases hi : x.source = i
    · rw [if_pos hi, typeAt?, htarget]
      simp [hi]
    · rw [if_neg hi, ih hends]
      simp [Ne.symm hi]

/-- Whatever a drawing says of generalizations and realizations, its model has a sound hierarchy.  A
line of superclasses that did not end would have failed as a cycle. -/
theorem hierarchySound_of_ofDrawing (h : (ofDrawing drawing imports).result = .ok m) :
    m.HierarchySound drawing := by
  obtain ⟨d, r, hd, hm, -⟩ := exists_completion_of_ofDrawing h
  have hwithin : ∀ x ∈ r.generalizations, x.Within m.entities := by
    intro x hx
    obtain ⟨edge, -, hedge⟩ := exists_of_forall₂_right hm.reads.generalizations hx
    have hx := within_of_reversedEndpoints hedge
    unfold Endpoints.Within
    rw [hm.length_entities]
    exact hx
  constructor
  · intro e he t ht
    obtain ⟨i, hi⟩ := List.mem_iff_getElem?.1 he
    have ht : e.superclass = some t := ht
    rw [hm.superclass_eq hd hi] at ht
    obtain ⟨x, -, hx⟩ := Option.bind_eq_some_iff.1 ht
    exact exists_mem_of_typeAt? hx
  · intro e he t ht
    obtain ⟨i, hi⟩ := List.mem_iff_getElem?.1 he
    rw [hm.mixins_eq hd hi] at ht
    obtain ⟨x, -, hx⟩ := List.mem_filterMap.1 ht
    exact exists_mem_of_typeAt? hx
  · -- No position is the source of two generalizations.
    intro i e he
    rw [hm.countP_generalizations, hm.superclass_eq hd he, isSome_superclassAt hwithin,
      hm.reads.sources_nodup.count]
    simp
  · intro e he
    obtain ⟨as, has⟩ := exists_isMarked_of_markOverrides hm.marked he
    exact exists_lineage_of_ancestors has.ancestors_eq he

/-! ### A drawing with a superclass and a mixin -/

/-- An edge of a type that is attached to two objects. -/
def edgeBetween (type id head tail : String) : Node :=
  (Node.object type id).addChild (.ofConnections [⟨0, head⟩, ⟨1, tail⟩])

/-- A rush order is an order, and an order has a date. -/
def rushOrders : Node :=
  { Node.ofKind "diagram" with
    children := [
      classObject "O0" "RushOrder", classObject "O1" "Order", classObject "O2" "Dated",
      edgeBetween "UML - Generalization" "O3" "O1" "O0",
      edgeBetween "UML - Realizes" "O4" "O2" "O1"] }

theorem hierarchySound_of_rushOrders :
    ∃ m, (ofDrawing rushOrders .empty).result = .ok m ∧ m.HierarchySound rushOrders ∧
      m.entities.map (fun e => (e.superclass, e.mixins)) =
        [(some (.user ⟨"Order", ""⟩), []), (none, [.user ⟨"Dated", ""⟩]), (none, [])] := by
  have hmodel : (ofDrawing rushOrders .empty).result.toOption.map
      (fun m => m.entities.map fun e => (e.superclass, e.mixins)) =
      some [(some (.user ⟨"Order", ""⟩), []), (none, [.user ⟨"Dated", ""⟩]), (none, [])] := by
    decide +kernel
  cases h : (ofDrawing rushOrders .empty).result with
  | error e => simp [h, Except.toOption] at hmodel
  | ok m =>
    rw [h, Except.toOption, Option.map_some, Option.some.injEq] at hmodel
    exact ⟨m, rfl, hierarchySound_of_ofDrawing h, hmodel⟩

end Model

end ClassDiagram
