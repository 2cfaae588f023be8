import ClassDiagram.Proofs.Edge.Position

/-!
# What the edges of a hierarchy say

The stages for generalizations, realizations and dependencies go through the ends of their edges one
by one.  All together they make an edit by position: an entity gets the superclass that the only
generalization from its position leads to (`foldlM_setSuperclass_eq_ok_iff`), the mixins of the
realizations from its position behind its own (`foldl_addMixin`), and the companions of the
dependencies at its position (`foldl_setCompanion`).
-/

namespace ClassDiagram

theorem typesOf_modify {es : List Entity} {f : Entity → Entity}
    (hf : ∀ e, (f e).reference = e.reference) (i : Nat) :
    typesOf (es.modify i f) = typesOf es := by
  apply typesOf_congr
  apply List.ext_getElem?
  intro j
  rw [List.getElem?_map, List.getElem?_modify, List.getElem?_map]
  cases es[j]? with
  | none => rfl
  | some e => by_cases hi : i = j <;> simp [hi, hf]

/-! ### Generalizations -/

/-- Both ends are attached to entities. -/
def Endpoints.Within (ends : Endpoints) (es : List Entity) : Prop :=
  ends.source < es.length ∧ ends.target < es.length

/-- The entity at the source has no superclass yet. -/
def Endpoints.IsFree (ends : Endpoints) (es : List Entity) : Prop :=
  ∀ e, es[ends.source]? = some e → e.superclass = none

/-- The superclass that the first generalization from a position leads to. -/
def superclassAt (types : Nat → Option TypeExpr) (ends : List Endpoints) (i : Nat) :
    Option TypeExpr :=
  (ends.find? fun x => x.source = i).bind fun x => types x.target

/-- The entity at a position with the superclass that generalizations lead to. -/
def extendAt (types : Nat → Option TypeExpr) (ends : List Endpoints) (i : Nat) (e : Entity) :
    Entity :=
  { e with superclass := (superclassAt types ends i).or e.superclass }

theorem keepsHead_extendAt (types : Nat → Option TypeExpr) (ends : List Endpoints) :
    KeepsHead (extendAt types ends) :=
  ⟨fun _ _ => rfl, fun _ _ => rfl, fun _ _ => rfl⟩

theorem superclassAt_cons (types : Nat → Option TypeExpr) (x : Endpoints) (ends : List Endpoints)
    (i : Nat) :
    superclassAt types (x :: ends) i =
      if x.source = i then types x.target else superclassAt types ends i := by
  unfold superclassAt
  by_cases hi : x.source = i <;> simp [hi]

theorem superclassAt_eq_none {types : Nat → Option TypeExpr} {ends : List Endpoints} {i : Nat}
    (h : i ∉ ends.map Endpoints.source) : superclassAt types ends i = none := by
  induction ends with
  | nil => rfl
  | cons x ends ih =>
    rw [List.map_cons, List.mem_cons, not_or] at h
    rw [superclassAt_cons, if_neg (Ne.symm h.1), ih h.2]

theorem setSuperclass_eq_ok_iff {es es' : List Entity} {x : Endpoints} (hx : x.Within es) :
    setSuperclass es x = .ok es' ↔ x.IsFree es ∧
      es' = es.modify x.source fun e => { e with superclass := typesOf es x.target } := by
  obtain ⟨hsource, htarget⟩ := hx
  have hchild := List.getElem?_eq_getElem hsource
  have hparent := List.getElem?_eq_getElem htarget
  rw [setSuperclass, Endpoints.IsFree, typesOf, hchild, hparent]
  dsimp only
  cases h : es[x.source].superclass with
  | none => simp [h, eq_comm (a := es')]
  | some t => simp [h]

/-- One more generalization is one more edit. -/
theorem mapIdx_extendAt_modify {es : List Entity} {x : Endpoints} {ends : List Endpoints}
    (hx : x.Within es) (hnot : x.source ∉ ends.map Endpoints.source) :
    (es.modify x.source fun e => { e with superclass := typesOf es x.target }).mapIdx
        (extendAt (typesOf es) ends) =
      es.mapIdx (extendAt (typesOf es) (x :: ends)) := by
  obtain ⟨t, ht⟩ : ∃ t, typesOf es x.target = some t := by
    rw [typesOf, List.getElem?_eq_getElem hx.2]
    exact ⟨_, rfl⟩
  rw [modify_eq_mapIdx, List.mapIdx_mapIdx]
  congr 1
  funext i e
  by_cases hi : x.source = i
  · have hnone : superclassAt (typesOf es) ends i = none := superclassAt_eq_none (hi ▸ hnot)
    simp [extendAt, superclassAt_cons, hnone, hi, ht]
  · simp [extendAt, superclassAt_cons, hi]

/-- Generalizations are accepted just when no entity gets a second superclass, and the superclasses
are then those that the generalizations lead to. -/
theorem foldlM_setSuperclass_eq_ok_iff {es es' : List Entity} {ends : List Endpoints}
    (hends : ∀ x ∈ ends, x.Within es) :
    ends.foldlM setSuperclass es = .ok es' ↔
      (ends.map Endpoints.source).Nodup ∧ (∀ x ∈ ends, x.IsFree es) ∧
        es' = es.mapIdx (extendAt (typesOf es) ends) := by
  induction ends generalizing es with
  | nil =>
    have hid : es.mapIdx (extendAt (typesOf es) []) = es := by
      apply List.ext_getElem?
      intro i
      rw [List.getElem?_mapIdx]
      cases es[i]? <;> rfl
    rw [hid]
    simp [pure, Except.pure, eq_comm (a := es')]
  | cons x ends ih =>
    obtain ⟨hx, hends⟩ := List.forall_mem_cons.1 hends
    rw [List.foldlM_cons, bind_eq_ok_iff, List.map_cons, List.nodup_cons, List.forall_mem_cons]
    simp only [setSuperclass_eq_ok_iff hx]
    set next := es.modify x.source fun e => { e with superclass := typesOf es x.target } with hedit
    have hwithin : ∀ y ∈ ends, y.Within next := by
      intro y hy
      unfold Endpoints.Within
      rw [hedit, List.length_modify]
      exact hends y hy
    have htypes : typesOf next = typesOf es := by
      apply typesOf_modify
      intro e
      rfl
    -- After the first generalization, its source is taken and the other positions are as before.
    have hfree : ∀ y ∈ ends, (y.IsFree next ↔ x.source ≠ y.source ∧ y.IsFree es) := by
      intro y hy
      have hy' := List.getElem?_eq_getElem (hends y hy).1
      have hx' := List.getElem?_eq_getElem hx.2
      unfold Endpoints.IsFree
      rw [hedit, List.getElem?_modify, hy', typesOf, hx']
      by_cases hi : x.source = y.source <;> simp [hi]
    have hall : (∀ y ∈ ends, y.IsFree next) ↔
        x.source ∉ ends.map Endpoints.source ∧ ∀ y ∈ ends, y.IsFree es := by
      rw [forall₂_congr hfree, List.mem_map, not_exists]
      constructor
      · intro h
        exact ⟨fun y hy => (h y hy.1).1 hy.2.symm, fun y hy => (h y hy).2⟩
      · rintro ⟨hne, h⟩ y hy
        exact ⟨fun hyx => hne y ⟨hy, hyx.symm⟩, h y hy⟩
    constructor
    · rintro ⟨_, ⟨hxfree, rfl⟩, hfold⟩
      obtain ⟨hnodup, hnext, rfl⟩ := (ih hwithin).1 hfold
      obtain ⟨hnot, hrest⟩ := hall.1 hnext
      refine ⟨⟨hnot, hnodup⟩, ⟨hxfree, hrest⟩, ?_⟩
      rw [htypes, mapIdx_extendAt_modify hx hnot]
    · rintro ⟨⟨hnot, hnodup⟩, ⟨hxfree, hrest⟩, rfl⟩
      refine ⟨next, ⟨hxfree, rfl⟩, (ih hwithin).2 ⟨hnodup, hall.2 ⟨hnot, hrest⟩, ?_⟩⟩
      rw [htypes, mapIdx_extendAt_modify hx hnot]

/-! ### Realizations -/

/-- The traits that the realizations from a position lead to, in order. -/
def mixinsAt (types : Nat → Option TypeExpr) (ends : List Endpoints) (i : Nat) : List TypeExpr :=
  (ends.filter fun x => x.source = i).filterMap fun x => types x.target

/-- The entity at a position with the mixins of realizations. -/
def mixInAt (types : Nat → Option TypeExpr) (ends : List Endpoints) (i : Nat) (e : Entity) :
    Entity :=
  { e with mixins := e.mixins ++ mixinsAt types ends i }

theorem keepsHead_mixInAt (types : Nat → Option TypeExpr) (ends : List Endpoints) :
    KeepsHead (mixInAt types ends) :=
  ⟨fun _ _ => rfl, fun _ _ => rfl, fun _ _ => rfl⟩

theorem addMixin_eq (es : List Entity) (x : Endpoints) :
    addMixin es x = es.modify x.source fun e =>
      { e with mixins := e.mixins ++ (typesOf es x.target).toList } := by
  unfold addMixin typesOf
  cases es[x.target]? with
  | some realized => rfl
  | none =>
    show es = _
    rw [modify_eq_mapIdx]
    apply List.ext_getElem?
    intro i
    rw [List.getElem?_mapIdx]
    cases es[i]? <;> simp

/-- An entity gets the mixins of its realizations behind its own, in the order of the edges. -/
theorem foldl_addMixin (ends : List Endpoints) (es : List Entity) :
    ends.foldl addMixin es = es.mapIdx (mixInAt (typesOf es) ends) := by
  induction ends generalizing es with
  | nil =>
    apply List.ext_getElem?
    intro i
    rw [List.getElem?_mapIdx, List.foldl_nil]
    cases es[i]? <;> simp [mixInAt, mixinsAt]
  | cons x ends ih =>
    have htypes : typesOf (addMixin es x) = typesOf es := by
      rw [addMixin_eq]
      apply typesOf_modify
      intro e
      rfl
    rw [List.foldl_cons, ih, htypes, addMixin_eq, modify_eq_mapIdx, List.mapIdx_mapIdx]
    congr 1
    funext i e
    by_cases hi : x.source = i
    · cases ht : typesOf es x.target <;> simp [mixInAt, mixinsAt, hi, ht]
    · simp [mixInAt, mixinsAt, hi]

/-! ### Dependencies -/

/-- The entity at a position with the companions of dependencies: an object at the source of one,
and with a companion at the target of one. -/
def companionAt (ends : List Endpoints) (i : Nat) (e : Entity) : Entity :=
  { e with
    kind := if ends.any fun x => x.source = i then .object else e.kind
    hasCompanion := e.hasCompanion || ends.any fun x => x.target = i }

theorem keepsHead_companionAt (ends : List Endpoints) : KeepsHead (companionAt ends) :=
  ⟨fun _ _ => rfl, fun _ _ => rfl, fun _ _ => rfl⟩

theorem foldl_setCompanion (ends : List Endpoints) (es : List Entity) :
    ends.foldl setCompanion es = es.mapIdx (companionAt ends) := by
  induction ends generalizing es with
  | nil =>
    apply List.ext_getElem?
    intro i
    rw [List.getElem?_mapIdx, List.foldl_nil]
    cases es[i]? <;> simp [companionAt]
  | cons x ends ih =>
    rw [List.foldl_cons, ih, setCompanion, modify_eq_mapIdx, modify_eq_mapIdx, List.mapIdx_mapIdx,
      List.mapIdx_mapIdx]
    congr 1
    funext i e
    by_cases hs : x.source = i <;> by_cases ht : x.target = i <;> simp [companionAt, hs, ht]

/-! ### The stages -/

namespace Model

variable {drawing : Node} {m n : Model}

theorem within_of_reversedEndpoints {edge : Node} {x : Endpoints}
    (h : m.reversedEndpoints edge = .ok x) : x.Within m.entities := by
  obtain ⟨hs, ht⟩ := reversedEndpoints_eq_ok_iff.1 h
  exact ⟨lt_length_of_endpoint hs, lt_length_of_endpoint ht⟩

/-- Generalizations are resolved just when their ends are found, no two have the same source and no
source has a superclass. -/
theorem resolveGeneralizations_eq_ok_iff :
    (m.resolveGeneralizations drawing).result = .ok n ↔
      ∃ ends, List.Forall₂ (fun edge x => m.reversedEndpoints edge = .ok x)
          (drawing.query "object" "UML - Generalization") ends ∧
        (ends.map Endpoints.source).Nodup ∧ (∀ x ∈ ends, x.IsFree m.entities) ∧
        n = m.editEntities (extendAt m.typeAt? ends) := by
  rw [resolveGeneralizations, Traced.result_enter_bind, Traced.result_bind_eq_ok_iff]
  refine exists_congr fun ends => ?_
  rw [Traced.result_ofExcept, Traced.result_ofExcept, mapM_eq_ok_iff]
  refine and_congr_right fun hends => ?_
  have hwithin : ∀ x ∈ ends, x.Within m.entities := by
    intro x hx
    obtain ⟨edge, -, hedge⟩ := exists_of_forall₂_right hends hx
    exact within_of_reversedEndpoints hedge
  rw [setSuperclasses, map_eq_ok_iff]
  simp only [foldlM_setSuperclass_eq_ok_iff hwithin]
  constructor
  · rintro ⟨_, ⟨hnodup, hfree, rfl⟩, rfl⟩
    exact ⟨hnodup, hfree, rfl⟩
  · rintro ⟨hnodup, hfree, rfl⟩
    exact ⟨_, ⟨hnodup, hfree, rfl⟩, rfl⟩

/-- Realizations are resolved just when the ends of those that count are found, and then add their
targets as mixins. -/
theorem resolveRealizations_eq_ok_iff :
    (m.resolveRealizations drawing).result = .ok n ↔
      ∃ ends, List.Forall₂ (fun edge x => (m.realizationEnds edge).result = .ok x)
          (drawing.query "object" "UML - Realizes") ends ∧
        n = m.editEntities (mixInAt m.typeAt? (ends.filterMap id)) := by
  rw [resolveRealizations, Traced.result_enter_bind, Traced.result_bind_eq_ok_iff]
  simp only [Traced.result_mapM_eq_ok_iff, Traced.pure_eq_ok, Traced.result_ok, Except.ok.injEq,
    addMixins, foldl_addMixin, eq_comm (b := n)]
  rfl

theorem resolveDependencies_eq_ok_iff :
    (m.resolveDependencies drawing).result = .ok n ↔
      ∃ ends, List.Forall₂ (fun edge x => (m.dependencyEnds edge).result = .ok x)
          (drawing.query "object" "UML - Dependency") ends ∧
        n = m.editEntities (companionAt (ends.filterMap id)) := by
  rw [resolveDependencies, Traced.result_enter_bind, Traced.result_bind_eq_ok_iff]
  simp only [Traced.result_mapM_eq_ok_iff, Traced.pure_eq_ok, Traced.result_ok, Except.ok.injEq,
    setCompanions, foldl_setCompanion, eq_comm (b := n)]
  rfl

end Model

end ClassDiagram
