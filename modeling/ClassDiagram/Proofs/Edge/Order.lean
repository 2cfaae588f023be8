import ClassDiagram.Proofs.Edge.Outcome
import ClassDiagram.Proofs.Model.Companions

/-!
# The order of the stages that read edges

Each of the four stages finds its edges in a model and makes one edit by position of it
(`EdgeStage.resolve_eq_ok_iff`).  A stage changes the fields that it is there for and no others
(`EdgeStage.Confines`), and no other stage looks at them, so that what a stage finds does not depend
on whether another one has been taken (`EdgeStage.finds_editEntities_iff`).  So the stages may be
taken in any order (`EdgeStage.resolveAll_of_perm_all`).
-/

namespace ClassDiagram

/-- A stage that reads the edges of one type. -/
inductive EdgeStage where
  | generalizations
  | realizations
  | dependencies
  | associations
deriving DecidableEq

namespace EdgeStage

/-- The stages, in the order in which the edges of a drawing are read. -/
def all : List EdgeStage := [generalizations, realizations, dependencies, associations]

/-- The model after a stage. -/
def resolve (drawing : Node) (m : Model) : EdgeStage → Traced Model
  | generalizations => m.resolveGeneralizations drawing
  | realizations => m.resolveRealizations drawing
  | dependencies => m.resolveDependencies drawing
  | associations => m.resolveAssociations drawing

/-- The model after some stages, taken one after the other. -/
def resolveAll (drawing : Node) (stages : List EdgeStage) (m : Model) : Traced Model :=
  stages.foldlM (resolve drawing) m

variable {drawing : Node} {m n : Model} {f g : Nat → Entity → Entity} {s t : EdgeStage}

/-- A drawing has its edges read in one of the orders. -/
theorem resolveAll_all (drawing : Node) (m : Model) :
    resolveAll drawing all m = m.resolveEdges drawing := by
  simp [resolveAll, all, resolve, Model.resolveEdges, Traced.bind_ok]

/-! ### What a stage finds -/

/-- The stage finds all its edges in the model, and `f` is the edit that they make. -/
def Finds (drawing : Node) (m : Model) (f : Nat → Entity → Entity) : EdgeStage → Prop
  | generalizations => ∃ ends, List.Forall₂ (fun edge x => m.reversedEndpoints edge = .ok x)
      (drawing.query "object" "UML - Generalization") ends ∧ (ends.map Endpoints.source).Nodup ∧
      (∀ x ∈ ends, x.IsFree m.entities) ∧ f = extendAt m.typeAt? ends
  | realizations => ∃ ends, List.Forall₂ (fun edge x => (m.realizationEnds edge).result = .ok x)
      (drawing.query "object" "UML - Realizes") ends ∧ f = mixInAt m.typeAt? (ends.filterMap id)
  | dependencies => ∃ ends, List.Forall₂ (fun edge x => (m.dependencyEnds edge).result = .ok x)
      (drawing.query "object" "UML - Dependency") ends ∧ f = companionAt (ends.filterMap id)
  | associations => ∃ additions, List.Forall₂ m.Adds (associationEnds drawing) additions ∧
      f = fun i e => e.addAttributes (additionsTo i (additions.flatMap Option.toList))

/-- A stage succeeds just when it finds its edges, and it edits the entities as they say. -/
theorem resolve_eq_ok_iff :
    (s.resolve drawing m).result = .ok n ↔ ∃ f, s.Finds drawing m f ∧ n = m.editEntities f := by
  cases s with
  | generalizations =>
    refine Model.resolveGeneralizations_eq_ok_iff.trans ?_
    constructor
    · rintro ⟨ends, hends, hnodup, hfree, rfl⟩
      exact ⟨_, ⟨ends, hends, hnodup, hfree, rfl⟩, rfl⟩
    · rintro ⟨_, ⟨ends, hends, hnodup, hfree, rfl⟩, rfl⟩
      exact ⟨ends, hends, hnodup, hfree, rfl⟩
  | realizations =>
    refine Model.resolveRealizations_eq_ok_iff.trans ?_
    constructor
    · rintro ⟨ends, hends, rfl⟩
      exact ⟨_, ⟨ends, hends, rfl⟩, rfl⟩
    · rintro ⟨_, ⟨ends, hends, rfl⟩, rfl⟩
      exact ⟨ends, hends, rfl⟩
  | dependencies =>
    refine Model.resolveDependencies_eq_ok_iff.trans ?_
    constructor
    · rintro ⟨ends, hends, rfl⟩
      exact ⟨_, ⟨ends, hends, rfl⟩, rfl⟩
    · rintro ⟨_, ⟨ends, hends, rfl⟩, rfl⟩
      exact ⟨ends, hends, rfl⟩
  | associations =>
    refine Model.resolveAssociations_eq_ok_iff.trans ?_
    simp only [Model.addAttributes, foldl_addAttributeAt]
    constructor
    · rintro ⟨additions, hadds, rfl⟩
      exact ⟨_, ⟨additions, hadds, rfl⟩, rfl⟩
    · rintro ⟨_, ⟨additions, hadds, rfl⟩, rfl⟩
      exact ⟨additions, hadds, rfl⟩

/-! ### What a stage changes -/

/-- The edit changes only the fields that the stage is there for, and makes their new values from
the old ones. -/
def Confines (f : Nat → Entity → Entity) : EdgeStage → Prop
  | generalizations => ∃ change : Nat → Option TypeExpr → Option TypeExpr,
      f = fun i e => { e with superclass := change i e.superclass }
  | realizations => ∃ change : Nat → List TypeExpr → List TypeExpr,
      f = fun i e => { e with mixins := change i e.mixins }
  | dependencies => ∃ change : Nat → EntityKind × Bool → EntityKind × Bool,
      f = fun i e => { e with
        kind := (change i (e.kind, e.hasCompanion)).1
        hasCompanion := (change i (e.kind, e.hasCompanion)).2 }
  | associations => ∃ change : Nat → List Attribute → List Attribute,
      f = fun i e => { e with attributes := change i e.attributes }

theorem Finds.confines (h : s.Finds drawing m f) : s.Confines f := by
  cases s with
  | generalizations =>
    obtain ⟨ends, -, -, -, rfl⟩ := h
    exact ⟨fun i superclass => (superclassAt m.typeAt? ends i).or superclass, rfl⟩
  | realizations =>
    obtain ⟨ends, -, rfl⟩ := h
    exact ⟨fun i mixins => mixins ++ mixinsAt m.typeAt? (ends.filterMap id) i, rfl⟩
  | dependencies =>
    obtain ⟨ends, -, rfl⟩ := h
    exact ⟨fun i x => (if (ends.filterMap id).any fun y => y.source = i then .object else x.1,
      x.2 || (ends.filterMap id).any fun y => y.target = i), rfl⟩
  | associations =>
    obtain ⟨additions, -, rfl⟩ := h
    exact ⟨fun i attributes =>
      attributes ++ additionsTo i (additions.flatMap Option.toList), rfl⟩

/-- No stage changes what edges are attached by. -/
theorem Confines.keepsHead (h : s.Confines f) : KeepsHead f := by
  cases s <;> obtain ⟨change, rfl⟩ := h <;>
    exact ⟨fun _ _ => rfl, fun _ _ => rfl, fun _ _ => rfl⟩

/-- Only generalizations set superclasses. -/
theorem Confines.superclass_eq (h : s.Confines f) (hs : s ≠ generalizations) (i : Nat)
    (e : Entity) : (f i e).superclass = e.superclass := by
  cases s with
  | generalizations => exact absurd rfl hs
  | realizations | dependencies | associations =>
    obtain ⟨change, rfl⟩ := h
    rfl

/-- Two stages change different fields, whichever comes first. -/
theorem Confines.comm (hf : s.Confines f) (hg : t.Confines g) (hst : s ≠ t) :
    (fun i e => g i (f i e)) = fun i e => f i (g i e) := by
  cases s <;> cases t <;> first
    | exact absurd rfl hst
    | obtain ⟨change, rfl⟩ := hf
      obtain ⟨change', rfl⟩ := hg
      rfl

/-! ### One stage after another -/

/-- What a stage finds does not depend on whether another stage has been taken. -/
theorem finds_editEntities_iff (hf : s.Confines f) (hst : s ≠ t) :
    t.Finds drawing (m.editEntities f) g ↔ t.Finds drawing m g := by
  have hhead := hf.keepsHead
  cases t with
  | generalizations =>
    -- An entity that had no superclass has got none.
    have hfree : ∀ x : Endpoints, x.IsFree (m.editEntities f).entities ↔ x.IsFree m.entities := by
      intro x
      unfold Endpoints.IsFree
      rw [Model.getElem?_editEntities]
      cases m.entities[x.source]? with
      | none => simp
      | some e => simp [hf.superclass_eq hst]
    simp only [Finds, Model.reversedEndpoints_editEntities hhead, Model.typeAt?_editEntities hhead,
      hfree]
  | realizations =>
    simp only [Finds, Model.realizationEnds, Model.reversedEndpoints_editEntities hhead,
      Model.typeAt?_editEntities hhead]
  | dependencies => simp only [Finds, Model.dependencyEnds, Model.endpoints_editEntities hhead]
  | associations => simp only [Finds, Model.adds_editEntities hhead]

/-- Two different stages succeed just when both find their edges in the model as it was. -/
theorem resolve_bind_eq_ok_iff (hst : s ≠ t) :
    (s.resolve drawing m >>= fun k => t.resolve drawing k).result = .ok n ↔
      ∃ f g, s.Finds drawing m f ∧ t.Finds drawing m g ∧
        n = m.editEntities fun i e => g i (f i e) := by
  simp only [Traced.result_bind_eq_ok_iff, resolve_eq_ok_iff]
  constructor
  · rintro ⟨_, ⟨f, hf, rfl⟩, g, hg, rfl⟩
    exact ⟨f, g, hf, (finds_editEntities_iff hf.confines hst).1 hg, Model.editEntities_editEntities⟩
  · rintro ⟨f, g, hf, hg, rfl⟩
    exact ⟨_, ⟨f, hf, rfl⟩, g, (finds_editEntities_iff hf.confines hst).2 hg,
      Model.editEntities_editEntities.symm⟩

/-- Two stages can be exchanged. -/
theorem resolve_bind_comm (drawing : Node) (m n : Model) (s t : EdgeStage) :
    (s.resolve drawing m >>= fun k => t.resolve drawing k).result = .ok n ↔
      (t.resolve drawing m >>= fun k => s.resolve drawing k).result = .ok n := by
  by_cases hst : s = t
  · rw [hst]
  · rw [resolve_bind_eq_ok_iff hst, resolve_bind_eq_ok_iff (Ne.symm hst), exists_comm]
    refine exists_congr fun g => exists_congr fun f => ?_
    rw [and_left_comm]
    refine and_congr_right fun hg => and_congr_right fun hf => ?_
    rw [hf.confines.comm hg.confines hst]

theorem resolveAll_cons (drawing : Node) (m : Model) (s : EdgeStage) (stages : List EdgeStage) :
    resolveAll drawing (s :: stages) m = s.resolve drawing m >>= resolveAll drawing stages :=
  List.foldlM_cons

/-- Only which stages are taken matters for the outcome, and not their order. -/
theorem resolveAll_eq_ok_iff_of_perm {stages stages' : List EdgeStage} (h : stages.Perm stages')
    (m n : Model) :
    (resolveAll drawing stages m).result = .ok n ↔
      (resolveAll drawing stages' m).result = .ok n := by
  induction h generalizing m with
  | nil => exact Iff.rfl
  | cons s _ ih =>
    rw [resolveAll_cons, resolveAll_cons, Traced.result_bind_eq_ok_iff,
      Traced.result_bind_eq_ok_iff]
    exact exists_congr fun k => and_congr_right fun _ => ih k
  | swap s t stages =>
    have hsplit : ∀ s t : EdgeStage, resolveAll drawing (s :: t :: stages) m =
        (s.resolve drawing m >>= fun k => t.resolve drawing k) >>= resolveAll drawing stages := by
      intro s t
      rw [resolveAll_cons, bind_assoc]
      exact bind_congr fun k => resolveAll_cons drawing k t stages
    rw [hsplit, hsplit, Traced.result_bind_eq_ok_iff, Traced.result_bind_eq_ok_iff]
    exact exists_congr fun k => and_congr_left fun _ => resolve_bind_comm drawing m k t s
  | trans _ _ ih ih' => exact (ih m).trans (ih' m)

/-- Two orders of the four stages both fail or both make the same model. -/
theorem resolveAll_of_perm_all {stages stages' : List EdgeStage} (h : stages.Perm all)
    (h' : stages'.Perm all) (drawing : Node) (m : Model) :
    (∃ e e', (resolveAll drawing stages m).result = .error e ∧
        (resolveAll drawing stages' m).result = .error e') ∨
      ∃ n, (resolveAll drawing stages m).result = .ok n ∧
        (resolveAll drawing stages' m).result = .ok n := by
  have hiff : ∀ n, (resolveAll drawing stages m).result = .ok n ↔
      (resolveAll drawing stages' m).result = .ok n :=
    resolveAll_eq_ok_iff_of_perm (h.trans h'.symm) m
  cases hr : (resolveAll drawing stages m).result with
  | ok n => exact .inr ⟨n, rfl, (hiff n).1 hr⟩
  | error e =>
    cases hr' : (resolveAll drawing stages' m).result with
    | ok n => exact absurd ((hiff n).2 hr') (by simp [hr])
    | error e' => exact .inl ⟨e, e', rfl, rfl⟩

/-! ### A drawing with edges of all types -/

/-- Orders with the instant at which they were placed, rush orders among them, and the instant as
the companion of the orders and as their mixin. -/
def rushedOrders : Node :=
  { Node.ofKind "diagram" with
    children := [
      Model.classObject "O0" "Order", Model.classObject "O1" "Instant", Model.placement,
      Model.classObject "O3" "RushOrder",
      Model.edgeBetween "UML - Generalization" "O4" "O0" "O3",
      Model.edgeBetween "UML - Realizes" "O5" "O1" "O0", Model.companionEdge "O6" "O1" "O0"] }

/-- The model of `rushedOrders` before its edges are read. -/
def drawnRushedOrders : Model :=
  (Model.entitiesOfDrawing rushedOrders .empty).result.toOption.getD .empty

theorem resolveAll_of_rushedOrders :
    [associations, dependencies, realizations, generalizations].Perm all ∧
      [realizations, associations, generalizations, dependencies].Perm all ∧
      ((∃ e e',
          (resolveAll rushedOrders [associations, dependencies, realizations, generalizations]
            drawnRushedOrders).result = .error e ∧
          (resolveAll rushedOrders [realizations, associations, generalizations, dependencies]
            drawnRushedOrders).result = .error e') ∨
        ∃ n,
          (resolveAll rushedOrders [associations, dependencies, realizations, generalizations]
            drawnRushedOrders).result = .ok n ∧
          (resolveAll rushedOrders [realizations, associations, generalizations, dependencies]
            drawnRushedOrders).result = .ok n) ∧
      (resolveAll rushedOrders [associations, dependencies, realizations, generalizations]
          drawnRushedOrders).result.toOption.map (fun n => n.entities.map fun e =>
            (e.superclass, e.mixins, e.kind, e.attributes.map Attribute.name)) =
        some [(none, [.user ⟨"Instant", ""⟩], .cls, ["placed"]), (none, [], .object, []),
          (some (.user ⟨"Order", ""⟩), [], .cls, [])] :=
  ⟨by decide, by decide, resolveAll_of_perm_all (by decide) (by decide) _ _, by decide +kernel⟩

end EdgeStage

end ClassDiagram
