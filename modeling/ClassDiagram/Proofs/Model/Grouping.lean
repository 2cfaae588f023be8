import ClassDiagram.Proofs.Model.Companions

/-!
# Layers, groups and foreign elements

A model is read from the objects of seven types (`drawnTypes`), wherever they stand in the drawing.
So a run of siblings may be put into a layer or a group, and elements that hold no such object may
be added, as long as this happens outside all objects (`Node.Regroups`): each query finds the same
objects in the same order (`Node.Regroups.query_eq`).  No stage looks at a drawing in any other way
(`Model.ofDrawing_congr`), so that the model, the error, the stages and the warnings stay what they
are (`Model.ofDrawing_eq_of_regroups`).
-/

namespace ClassDiagram

/-- The types of the objects from which a model is read. -/
def drawnTypes : List String :=
  ["UML - LargePackage", "UML - SmallPackage", "UML - Class", "UML - Generalization",
    "UML - Realizes", "UML - Dependency", "UML - Association"]

namespace Node

/-- The element is an object from which a model is read. -/
def IsDrawn (n : Node) : Prop :=
  n.kind = "object" ∧ ∃ type ∈ drawnTypes, n.type? = some type

/-- Neither the element nor an element below it is an object from which a model is read. -/
def IsForeign (n : Node) : Prop := ∀ d ∈ n.preorder, ¬ d.IsDrawn

instance : DecidablePred IsDrawn := fun _ => inferInstanceAs (Decidable (_ ∧ _))

instance : DecidablePred IsForeign := fun n =>
  inferInstanceAs (Decidable (∀ d ∈ n.preorder, ¬ d.IsDrawn))

/-- A list of siblings becomes another one by one change, at a place that is in no object below
them: a run of siblings is put into a new element that is no object, or a foreign element is
added. -/
inductive Regroups : List Node → List Node → Prop
  /-- The siblings `run` become the children of the element `group`. -/
  | group (before run after : List Node) (group : Node) (hkind : group.kind ≠ "object")
      (hrun : group.children = run) : Regroups (before ++ run ++ after) (before ++ group :: after)
  /-- The foreign element `n` is added. -/
  | insert (before after : List Node) (n : Node) (hforeign : n.IsForeign) :
      Regroups (before ++ after) (before ++ n :: after)
  /-- The change is made among the children of the element `n`, which is no object. -/
  | within (before after : List Node) (n : Node) {children : List Node}
      (hkind : n.kind ≠ "object") (h : Regroups n.children children) :
      Regroups (before ++ n :: after) (before ++ { n with children := children } :: after)

/-! ### What a query finds -/

variable {n : Node} {kind type : String} {ns ms : List Node}

/-- A query finds what it finds in the trees of the children, one after the other. -/
theorem query_eq_flatMap (n : Node) (kind type : String) :
    n.query kind type = n.children.flatMap fun c => c.preorder.filter fun d => d.isA kind type := by
  rw [query, descendants_eq, List.filter_flatMap]

/-- An element of another kind is not found itself. -/
theorem filter_preorder_of_ne (h : n.kind ≠ kind) :
    (n.preorder.filter fun d => d.isA kind type) = n.query kind type := by
  rw [preorder, List.filter_cons_of_neg (by simp [isA, h]), query]

/-- Nothing is found in a foreign element. -/
theorem IsForeign.filter_preorder (h : n.IsForeign) (htype : type ∈ drawnTypes) :
    (n.preorder.filter fun d => d.isA "object" type) = [] := by
  rw [List.filter_eq_nil_iff]
  intro d hd hfound
  obtain ⟨hkind, hd'⟩ : d.kind = "object" ∧ d.type? = some type := by
    simpa [isA] using hfound
  exact h d hd ⟨hkind, type, htype, hd'⟩

/-- A change outside all objects leaves what is found below siblings as it is. -/
theorem Regroups.flatMap_eq (h : Regroups ns ms) (htype : type ∈ drawnTypes) :
    (ms.flatMap fun c => c.preorder.filter fun d => d.isA "object" type) =
      ns.flatMap fun c => c.preorder.filter fun d => d.isA "object" type := by
  induction h with
  | group before run after group hkind hrun =>
    rw [List.flatMap_append, List.flatMap_cons, filter_preorder_of_ne hkind, query_eq_flatMap, hrun,
      List.flatMap_append, List.flatMap_append, List.append_assoc]
  | insert before after n hforeign =>
    rw [List.flatMap_append, List.flatMap_cons, hforeign.filter_preorder htype, List.nil_append,
      List.flatMap_append]
  | within before after n hkind _ ih =>
    -- The element has the same kind with its new children.
    rw [List.flatMap_append, List.flatMap_cons, List.flatMap_append, List.flatMap_cons,
      filter_preorder_of_ne hkind, filter_preorder_of_ne (by exact hkind), query_eq_flatMap,
      query_eq_flatMap, ih]

/-- The objects from which a model is read are found in the same order after a change outside all
objects. -/
theorem Regroups.query_eq (h : Regroups n.children ms) (htype : type ∈ drawnTypes) :
    { n with children := ms }.query "object" type = n.query "object" type := by
  rw [query_eq_flatMap, query_eq_flatMap]
  exact h.flatMap_eq htype

end Node

namespace Model

/-! ### What the stages look at -/

/-- The queries for the objects from which a model is read find the same in both drawings. -/
def SameObjects (d e : Node) : Prop :=
  ∀ type ∈ drawnTypes, d.query "object" type = e.query "object" type

section SameObjects

variable {d e : Node} (h : SameObjects d e)

include h

theorem entitiesOfDrawing_congr (imports : ImportTable) :
    entitiesOfDrawing d imports = entitiesOfDrawing e imports := by
  have hpackages : d.packageObjects = e.packageObjects := by
    rw [Node.packageObjects, Node.packageObjects, h "UML - LargePackage" (by decide),
      h "UML - SmallPackage" (by decide)]
  rw [entitiesOfDrawing, entitiesOfDrawing, Package.readAll, Package.readAll, Entity.readAll,
    Entity.readAll, hpackages, h "UML - Class" (by decide)]

theorem resolveEdges_congr (m : Model) : m.resolveEdges d = m.resolveEdges e := by
  have hgeneralizations : resolveGeneralizations d = resolveGeneralizations e := by
    funext m
    rw [resolveGeneralizations, resolveGeneralizations, h "UML - Generalization" (by decide)]
  have hrealizations : resolveRealizations d = resolveRealizations e := by
    funext m
    rw [resolveRealizations, resolveRealizations, h "UML - Realizes" (by decide)]
  have hdependencies : resolveDependencies d = resolveDependencies e := by
    funext m
    rw [resolveDependencies, resolveDependencies, h "UML - Dependency" (by decide)]
  have hassociations : resolveAssociations d = resolveAssociations e := by
    funext m
    rw [resolveAssociations, resolveAssociations, h "UML - Association" (by decide)]
  rw [resolveEdges, resolveEdges, hgeneralizations, hrealizations, hdependencies, hassociations]

/-- Drawings in which the queries find the same objects go the same way. -/
theorem ofDrawing_congr (imports : ImportTable) : ofDrawing d imports = ofDrawing e imports := by
  rw [ofDrawing, ofDrawing, entitiesOfDrawing_congr h]
  simp only [resolveEdges_congr h]

end SameObjects

/-! ### Changes outside all objects -/

/-- A drawing has the same model or fails with the same error, and enters the same stages and raises
the same warnings on the way, after a change outside all objects. -/
theorem ofDrawing_eq_of_regroups {drawing : Node} {children : List Node}
    (h : Node.Regroups drawing.children children) (imports : ImportTable) :
    ofDrawing { drawing with children := children } imports = ofDrawing drawing imports :=
  ofDrawing_congr (fun _ htype => h.query_eq htype) imports

/-- A layer of a drawing. -/
def layerOf (children : List Node) : Node :=
  { (Node.ofKind "layer").withAttribute "name" "Background" with children := children }

/-- A note, which no model is read from. -/
def counterNote : Node :=
  (Node.object "UML - Note" "O3").addChild (.named "text" (.ofString "counts itself"))

/-- The counter and its companion on a layer, with the dependency between them outside. -/
def layeredCounter : Node :=
  { counterDrawing with
    children := [
      layerOf [countedClass "O0" "Counter", classObject "O1" "Counter"],
      companionEdge "O2" "O1" "O0"] }

/-- The same with a note between the counter and its companion. -/
def notedCounter : Node :=
  { layeredCounter with
    children := [
      layerOf [countedClass "O0" "Counter", counterNote, classObject "O1" "Counter"],
      companionEdge "O2" "O1" "O0"] }

theorem ofDrawing_notedCounter :
    Node.Regroups counterDrawing.children layeredCounter.children ∧
      Node.Regroups layeredCounter.children notedCounter.children ∧
      ofDrawing notedCounter .empty = ofDrawing counterDrawing .empty ∧
      (ofDrawing notedCounter .empty).result.toOption.map (fun m => m.entities.map Entity.id) =
        some ["O0", "O0_companion", "O1"] := by
  have hlayered : Node.Regroups counterDrawing.children layeredCounter.children :=
    .group [] [countedClass "O0" "Counter", classObject "O1" "Counter"]
      [companionEdge "O2" "O1" "O0"] (layerOf _) (by decide) rfl
  have hnoted : Node.Regroups layeredCounter.children notedCounter.children :=
    .within [] [companionEdge "O2" "O1" "O0"] (layerOf _) (by decide)
      (.insert [countedClass "O0" "Counter"] [classObject "O1" "Counter"] counterNote (by decide))
  have heq : ofDrawing notedCounter .empty = ofDrawing counterDrawing .empty :=
    (ofDrawing_eq_of_regroups hnoted .empty).trans (ofDrawing_eq_of_regroups hlayered .empty)
  refine ⟨hlayered, hnoted, heq, ?_⟩
  rw [heq]
  decide +kernel

end Model

end ClassDiagram
