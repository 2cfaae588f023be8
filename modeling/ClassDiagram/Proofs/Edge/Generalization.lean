import ClassDiagram.Proofs.Edge.Attachment
import ClassDiagram.Proofs.Model.Hierarchy
import ClassDiagram.Proofs.Model.OverrideOrder

/-!
# What generalizations come to

Generalizations are accepted just when all of them connect entities, no two of them start from one
entity, and none starts from an entity that has a superclass (`Model.CanExtend`).  Each entity that
one starts from then gets the superclass that it leads to, and nothing else is changed
(`Model.Extends`).  Neither of the two depends on the order of the edges, and so the outcome does
not either (`Model.resolveGeneralizations_exact`).
-/

namespace ClassDiagram

/-- The generalizations of a drawing, in document order. -/
def Node.generalizations (drawing : Node) : List Node :=
  drawing.query "object" "UML - Generalization"

/-- Where no two generalizations start from one position, each of them sets the superclass. -/
theorem superclassAt_source {types : Nat → Option TypeExpr} {ends : List Endpoints}
    (h : (ends.map Endpoints.source).Nodup) {x : Endpoints} (hx : x ∈ ends) :
    superclassAt types ends x.source = types x.target := by
  have hunique : ∀ y ∈ ends, y.source = x.source → y = x := fun y hy hsource =>
    List.inj_on_of_nodup_map h hy hx hsource
  rw [superclassAt]
  cases hfind : ends.find? fun y => y.source = x.source with
  | none => simpa using List.find?_eq_none.1 hfind x hx
  | some y =>
    have hsource : y.source = x.source := by simpa using List.find?_some hfind
    rw [hunique y (List.mem_of_find?_eq_some hfind) hsource, Option.bind_some]

namespace Model

variable {drawing drawing' edge : Node} {m n : Model} {ends : List Endpoints}

/-- All generalizations of the drawing connect entities, each of them another subclass, and no
subclass has a superclass yet. -/
structure CanExtend (drawing : Node) (m : Model) : Prop where
  connected : ∀ edge ∈ drawing.generalizations, m.Connected edge
  single : drawing.generalizations.Pairwise fun edge edge' =>
    ∀ i, m.AttachedAt edge 1 i → ¬ m.AttachedAt edge' 1 i
  free : ∀ edge ∈ drawing.generalizations, ∀ i e, m.Attached edge 1 i e → e.superclass = none

/-- What the generalizations of the drawing make of the entity `e` at the position `i`. -/
inductive Extends (drawing : Node) (m : Model) (i : Nat) (e : Entity) : Entity → Prop
  /-- A generalization leads from the entity to the entity `s`. -/
  | extended {edge : Node} {j : Nat} {s : Entity} (hedge : edge ∈ drawing.generalizations)
      (hsub : m.AttachedAt edge 1 i) (hsuper : m.Attached edge 0 j s) :
      Extends drawing m i e { e with superclass := some (.user s.reference) }
  /-- No generalization leads from the entity. -/
  | kept (h : ∀ edge ∈ drawing.generalizations, ¬ m.AttachedAt edge 1 i) : Extends drawing m i e e

/-! ### Ends of generalizations -/

/-- The ends have been found for the generalizations of the drawing. -/
def FindsGeneralizations (drawing : Node) (m : Model) (ends : List Endpoints) : Prop :=
  List.Forall₂ (fun edge x => m.reversedEndpoints edge = .ok x) drawing.generalizations ends

theorem exists_findsGeneralizations_iff :
    (∃ ends, m.FindsGeneralizations drawing ends) ↔
      ∀ edge ∈ drawing.generalizations, m.Connected edge := by
  simp only [FindsGeneralizations, exists_forall₂_iff, exists_reversedEndpoints_iff]

namespace FindsGeneralizations

variable (h : m.FindsGeneralizations drawing ends)

include h

theorem exists_mem (hedge : edge ∈ drawing.generalizations) :
    ∃ x ∈ ends, m.endpoint edge 1 = .ok x.source ∧ m.endpoint edge 0 = .ok x.target := by
  obtain ⟨x, hx, hends⟩ := exists_of_forall₂_right h.flip hedge
  exact ⟨x, hx, reversedEndpoints_eq_ok_iff.1 hends⟩

theorem mem_sources_iff {i : Nat} :
    i ∈ ends.map Endpoints.source ↔ ∃ edge ∈ drawing.generalizations, m.AttachedAt edge 1 i := by
  rw [List.mem_map]
  symm
  apply exists_mem_iff_of_forall₂ h
  intro edge x hx
  rw [attachedAt_iff, (reversedEndpoints_eq_ok_iff.1 hx).1, Except.ok.injEq]

theorem nodup_sources_iff :
    (ends.map Endpoints.source).Nodup ↔ drawing.generalizations.Pairwise fun edge edge' =>
      ∀ i, m.AttachedAt edge 1 i → ¬ m.AttachedAt edge' 1 i := by
  rw [List.Nodup, List.pairwise_map]
  symm
  apply pairwise_iff_of_forall₂ h
  intro edge x edge' x' hx hx'
  simp only [attachedAt_iff, (reversedEndpoints_eq_ok_iff.1 hx).1,
    (reversedEndpoints_eq_ok_iff.1 hx').1, Except.ok.injEq, forall_eq']
  exact ne_comm

theorem isFree_iff :
    (∀ x ∈ ends, x.IsFree m.entities) ↔ ∀ edge ∈ drawing.generalizations, ∀ i e,
      m.Attached edge 1 i e → e.superclass = none := by
  constructor
  · intro hfree edge hedge i e he
    obtain ⟨x, hx, hsource, -⟩ := h.exists_mem hedge
    obtain ⟨hi, he⟩ := attached_iff.1 he
    obtain rfl := Except.ok.inj (hsource.symm.trans hi)
    exact hfree x hx e he
  · intro hfree x hx e he
    obtain ⟨edge, hedge, hends⟩ := exists_of_forall₂_right h hx
    exact hfree edge hedge x.source e (attached_iff.2 ⟨(reversedEndpoints_eq_ok_iff.1 hends).1, he⟩)

theorem extendAt_of_attached (hnodup : (ends.map Endpoints.source).Nodup)
    (hedge : edge ∈ drawing.generalizations) {i j : Nat} (hsub : m.AttachedAt edge 1 i) {s : Entity}
    (hsuper : m.Attached edge 0 j s) (e : Entity) :
    extendAt m.typeAt? ends i e = { e with superclass := some (.user s.reference) } := by
  obtain ⟨x, hx, hsource, htarget⟩ := h.exists_mem hedge
  obtain rfl := Except.ok.inj (hsource.symm.trans (attachedAt_iff.1 hsub))
  have htype := (typeAt?_eq_some_iff htarget).2 ⟨j, s, hsuper, rfl⟩
  rw [extendAt, superclassAt_source hnodup hx, htype, Option.some_or]

theorem extendAt_of_not_attached {i : Nat}
    (hnone : ∀ edge ∈ drawing.generalizations, ¬ m.AttachedAt edge 1 i) (e : Entity) :
    extendAt m.typeAt? ends i e = e := by
  have hnot : i ∉ ends.map Endpoints.source := by
    rintro hi
    obtain ⟨edge, hedge, hsub⟩ := h.mem_sources_iff.1 hi
    exact hnone edge hedge hsub
  rw [extendAt, superclassAt_eq_none hnot, Option.none_or]

/-- The ends say what becomes of every entity. -/
theorem extends_iff (hnodup : (ends.map Endpoints.source).Nodup) {i : Nat} {e e' : Entity} :
    m.Extends drawing i e e' ↔ e' = extendAt m.typeAt? ends i e := by
  constructor
  · rintro (⟨hedge, hsub, hsuper⟩ | hnone)
    · rw [h.extendAt_of_attached hnodup hedge hsub hsuper]
    · rw [h.extendAt_of_not_attached hnone]
  · rintro rfl
    by_cases hi : ∃ edge ∈ drawing.generalizations, m.AttachedAt edge 1 i
    · obtain ⟨edge, hedge, hsub⟩ := hi
      obtain ⟨⟨j, s, hsuper⟩, -⟩ := exists_findsGeneralizations_iff.1 ⟨ends, h⟩ edge hedge
      rw [h.extendAt_of_attached hnodup hedge hsub hsuper]
      exact .extended hedge hsub hsuper
    · have hnone : ∀ edge ∈ drawing.generalizations, ¬ m.AttachedAt edge 1 i :=
        fun edge hedge hsub => hi ⟨edge, hedge, hsub⟩
      rw [h.extendAt_of_not_attached hnone]
      exact .kept hnone

theorem canExtend_iff : m.CanExtend drawing ↔
    (ends.map Endpoints.source).Nodup ∧ ∀ x ∈ ends, x.IsFree m.entities := by
  rw [h.nodup_sources_iff, h.isFree_iff]
  constructor
  · intro hcan
    exact ⟨hcan.single, hcan.free⟩
  · rintro ⟨hsingle, hfree⟩
    exact ⟨exists_findsGeneralizations_iff.1 ⟨ends, h⟩, hsingle, hfree⟩

end FindsGeneralizations

/-! ### The stage -/

/-- Ends that can be made superclasses of. -/
structure FindsSuperclasses (drawing : Node) (m : Model) (ends : List Endpoints) : Prop where
  finds : m.FindsGeneralizations drawing ends
  nodup : (ends.map Endpoints.source).Nodup
  free : ∀ x ∈ ends, x.IsFree m.entities

theorem exists_findsSuperclasses_iff :
    (∃ ends, m.FindsSuperclasses drawing ends) ↔ m.CanExtend drawing := by
  constructor
  · rintro ⟨ends, hfinds, hnodup, hfree⟩
    exact hfinds.canExtend_iff.2 ⟨hnodup, hfree⟩
  · intro hcan
    obtain ⟨ends, hfinds⟩ := exists_findsGeneralizations_iff.2 hcan.connected
    obtain ⟨hnodup, hfree⟩ := hfinds.canExtend_iff.1 hcan
    exact ⟨ends, hfinds, hnodup, hfree⟩

theorem resolveGeneralizations_eq_ok_iff_edits (n : Model) :
    (m.resolveGeneralizations drawing).result = .ok n ↔
      ∃ ends, m.FindsSuperclasses drawing ends ∧ n = m.editEntities (extendAt m.typeAt? ends) := by
  rw [resolveGeneralizations_eq_ok_iff]
  constructor
  · rintro ⟨ends, hfinds, hnodup, hfree, hn⟩
    exact ⟨ends, ⟨hfinds, hnodup, hfree⟩, hn⟩
  · rintro ⟨ends, ⟨hfinds, hnodup, hfree⟩, hn⟩
    exact ⟨ends, hfinds, hnodup, hfree, hn⟩

theorem exists_resolveGeneralizations_iff :
    (∃ n, (m.resolveGeneralizations drawing).result = .ok n) ↔ m.CanExtend drawing := by
  rw [exists_eq_ok_iff_of_edits resolveGeneralizations_eq_ok_iff_edits,
    exists_findsSuperclasses_iff]

theorem resolveGeneralizations_eq_ok_iff_becomes :
    (m.resolveGeneralizations drawing).result = .ok n ↔
      m.CanExtend drawing ∧ m.Becomes (m.Extends drawing) n := by
  rw [eq_ok_iff_becomes_of_edits resolveGeneralizations_eq_ok_iff_edits
    fun ends hends _ _ _ _ => hends.finds.extends_iff hends.nodup, exists_findsSuperclasses_iff]

/-! ### The order of generalizations -/

section Perm

variable (h : drawing'.generalizations.Perm drawing.generalizations)

include h

theorem CanExtend.of_perm (hcan : m.CanExtend drawing) : m.CanExtend drawing' := by
  refine ⟨fun edge hedge => hcan.connected edge (h.mem_iff.1 hedge), ?_,
    fun edge hedge => hcan.free edge (h.mem_iff.1 hedge)⟩
  refine (h.pairwise_iff ?_).2 hcan.single
  intro edge edge' hsingle i hi hi'
  exact hsingle i hi' hi

/-- What an entity becomes does not depend on the order of the generalizations. -/
theorem extends_of_perm : m.Extends drawing' = m.Extends drawing := by
  funext i e e'
  apply propext
  constructor
  · rintro (⟨hedge, hsub, hsuper⟩ | hnone)
    · exact .extended (h.mem_iff.1 hedge) hsub hsuper
    · exact .kept fun edge hedge => hnone edge (h.mem_iff.2 hedge)
  · rintro (⟨hedge, hsub, hsuper⟩ | hnone)
    · exact .extended (h.mem_iff.2 hedge) hsub hsuper
    · exact .kept fun edge hedge => hnone edge (h.mem_iff.1 hedge)

end Perm

/-- Generalizations are read just when they connect entities, no two from one subclass and none from
one with a superclass.  Each subclass then gets its superclass and nothing else is changed, so that
two orders of the generalizations both fail or both make the same model. -/
theorem resolveGeneralizations_exact (drawing : Node) (m : Model) :
    ((∃ n, (m.resolveGeneralizations drawing).result = .ok n) ↔ m.CanExtend drawing) ∧
      (∀ n, (m.resolveGeneralizations drawing).result = .ok n ↔
        m.CanExtend drawing ∧ m.Becomes (m.Extends drawing) n) ∧
      ∀ drawing', drawing'.generalizations.Perm drawing.generalizations →
        SameValue (m.resolveGeneralizations drawing').result
          (m.resolveGeneralizations drawing).result := by
  refine ⟨exists_resolveGeneralizations_iff, fun n => resolveGeneralizations_eq_ok_iff_becomes, ?_⟩
  intro drawing' h
  apply sameValue_of_iff
  intro n
  have hcan : m.CanExtend drawing' ↔ m.CanExtend drawing :=
    ⟨CanExtend.of_perm h.symm, CanExtend.of_perm h⟩
  rw [resolveGeneralizations_eq_ok_iff_becomes, resolveGeneralizations_eq_ok_iff_becomes, hcan,
    extends_of_perm h]

/-! ### Orders and their kinds -/

/-- A drawing of edges only. -/
def edgeDrawing (edges : List Node) : Node :=
  { Node.ofKind "diagram" with children := edges }

/-- Three classes in no package. -/
def orderClasses : Model :=
  ofParts []
    [bareEntity "O0" "RushOrder" .cls, bareEntity "O1" "Order" .cls, bareEntity "O2" "Dated" .trait]
    .empty

/-- A rush order is an order, and an order is dated. -/
def orderKinds : List Node :=
  [edgeBetween "UML - Generalization" "O3" "O1" "O0",
    edgeBetween "UML - Generalization" "O4" "O2" "O1"]

/-- The superclasses are the same whichever of the two generalizations comes first. -/
theorem resolveGeneralizations_of_orderKinds :
    (edgeDrawing orderKinds.reverse).generalizations.Perm
        (edgeDrawing orderKinds).generalizations ∧
      SameValue (orderClasses.resolveGeneralizations (edgeDrawing orderKinds.reverse)).result
        (orderClasses.resolveGeneralizations (edgeDrawing orderKinds)).result ∧
      (orderClasses.resolveGeneralizations (edgeDrawing orderKinds)).result.toOption.map
          (fun n => n.entities.map Entity.superclass) =
        some [some (.user ⟨"Order", ""⟩), some (.user ⟨"Dated", ""⟩), none] := by
  have hperm : (edgeDrawing orderKinds.reverse).generalizations.Perm
      (edgeDrawing orderKinds).generalizations := orderKinds.reverse_perm
  exact ⟨hperm, (resolveGeneralizations_exact _ _).2.2 _ hperm, by decide +kernel⟩

end Model

end ClassDiagram
