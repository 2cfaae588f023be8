import ClassDiagram.Proofs.Model.Completion

/-!
# What the import table decides

The import table is carried along to the stage that qualifies references, and used nowhere else.  As
overriding members are the same with and without packages in types, two tables lead to the same
trace, the same error or the same model, up to the packages of references in the types of members
(`agree_ofDrawing`).
-/

namespace ClassDiagram

namespace Model

variable {drawing : Node} {m n : Model}

/-! ### Stages before references are qualified -/

section Stages

variable (drawing : Node) (m : Model) (J : ImportTable)

theorem packageStage_withImports :
    (m.withImports J).packageStage = (withImports · J) <$> m.packageStage := rfl

theorem companionStage_withImports :
    (m.withImports J).companionStage = (withImports · J) <$> m.companionStage := rfl

theorem splitCompanions_withImports :
    (m.withImports J).splitCompanions = m.splitCompanions.map (withImports · J) := by
  have hentities : (m.withImports J).entities = m.entities := rfl
  unfold splitCompanions
  rw [hentities]
  cases m.entities.find? fun e => e.needsCompanion && hasObject m.entities e.reference <;> rfl

/-- Entities are read without a look at the import table. -/
theorem entitiesOfDrawing_withImports (I : ImportTable) :
    entitiesOfDrawing drawing J = (withImports · J) <$> entitiesOfDrawing drawing I := by
  have hparts : ∀ packages entities,
      ofParts packages entities J = (ofParts packages entities I).withImports J :=
    fun _ _ => rfl
  unfold entitiesOfDrawing
  simp only [hparts, packageStage_withImports, companionStage_withImports,
    splitCompanions_withImports, Traced.ofExcept_map, map_bind, bind_map_left]

theorem endpoint_withImports (edge : Node) (handle : UInt64) :
    (m.withImports J).endpoint edge handle = m.endpoint edge handle :=
  endpoint_congr (m := m.withImports J) (n := m) rfl edge handle

theorem endpoints_withImports (edge : Node) :
    (m.withImports J).endpoints edge = m.endpoints edge := by
  simp only [endpoints, endpoint_withImports]

theorem reversedEndpoints_withImports (edge : Node) :
    (m.withImports J).reversedEndpoints edge = m.reversedEndpoints edge := by
  simp only [reversedEndpoints, endpoint_withImports]

theorem resolveGeneralizations_withImports :
    (m.withImports J).resolveGeneralizations drawing =
      (withImports · J) <$> m.resolveGeneralizations drawing := by
  have hset : ∀ ends, (m.withImports J).setSuperclasses ends =
      (m.setSuperclasses ends).map (withImports · J) := by
    intro ends
    unfold setSuperclasses
    show (ends.foldlM setSuperclass m.entities).map _ = _
    cases ends.foldlM setSuperclass m.entities <;> rfl
  unfold resolveGeneralizations
  simp only [map_bind, funext (reversedEndpoints_withImports m J), hset, Traced.ofExcept_map]

theorem resolveRealizations_withImports :
    (m.withImports J).resolveRealizations drawing =
      (withImports · J) <$> m.resolveRealizations drawing := by
  have hends : (m.withImports J).realizationEnds = m.realizationEnds := by
    funext edge
    simp only [realizationEnds, reversedEndpoints_withImports]
  unfold resolveRealizations
  simp only [map_bind, map_pure, hends]
  rfl

theorem resolveDependencies_withImports :
    (m.withImports J).resolveDependencies drawing =
      (withImports · J) <$> m.resolveDependencies drawing := by
  have hends : (m.withImports J).dependencyEnds = m.dependencyEnds := by
    funext edge
    simp only [dependencyEnds, endpoints_withImports]
  unfold resolveDependencies
  simp only [map_bind, map_pure, hends]
  rfl

theorem resolveAssociations_withImports :
    (m.withImports J).resolveAssociations drawing =
      (withImports · J) <$> m.resolveAssociations drawing := by
  have hadditions : (m.withImports J).associationAdditions = m.associationAdditions := by
    funext edge
    simp only [associationAdditions, endpoints_withImports]
    rfl
  unfold resolveAssociations
  simp only [map_bind, map_pure, hadditions]
  rfl

/-- Edges are resolved without a look at the import table. -/
theorem resolveEdges_withImports :
    (m.withImports J).resolveEdges drawing = (withImports · J) <$> m.resolveEdges drawing := by
  unfold resolveEdges
  simp only [resolveGeneralizations_withImports, resolveRealizations_withImports,
    resolveDependencies_withImports, resolveAssociations_withImports, map_bind, bind_map_left]

end Stages

/-! ### Stages after references are qualified -/

theorem unqualified_of_mem {imports : ImportTable} {d : Model}
    (hd : (entitiesOfDrawing drawing imports).result = .ok d) {e : Entity} (he : e ∈ d.entities) :
    ∀ o ∈ e.operations, o.Unqualified := by
  obtain ⟨c, e₀, hc, -, he⟩ := exists_readFrom_of_mem hd he
  have hread : ∀ o ∈ e₀.operations, o.Unqualified := by
    intro o ho
    obtain ⟨record, -, hrecord⟩ := exists_of_forall₂_right hc.operations ho
    exact Operation.unqualified_of_read hrecord
  rcases Entity.eq_or_eq_of_mem_withCompanion he with rfl | rfl | rfl
  · exact hread
  · exact fun o ho => hread o (List.mem_of_mem_filter ho)
  · exact fun o ho => hread o (List.mem_of_mem_filter ho)

theorem markOverrides_withImports (m : Model) (J : ImportTable) :
    (m.withImports J).markOverrides = m.markOverrides.map (withImports · J) := by
  have hancestors : (m.withImports J).ancestors = m.ancestors := ancestors_congr fun _ => rfl
  have hentities : (m.withImports J).entities = m.entities := rfl
  rw [markOverrides_eq, markOverrides_eq, hancestors, hentities]
  cases m.entities.mapM fun e => (m.ancestors e).map e.markOverrides <;> rfl

theorem diagnostics_mapTypes (m : Model) (f : EntityRef → EntityRef) :
    (m.mapTypes f).diagnostics = m.diagnostics := by
  have hin : ∀ name, ((m.mapTypes f).entitiesIn name).isEmpty = (m.entitiesIn name).isEmpty := by
    intro name
    show ((m.entities.map _).filter _).isEmpty = _
    rw [List.filter_map, List.isEmpty_map]
    rfl
  unfold diagnostics
  simp only [hin]
  show (m.entities.map _).flatMap _ ++ _ ++ _ = _
  rw [List.flatMap_map]
  rfl

/-- A change that the final check does not see can be made behind it. -/
theorem check_map {g : Model → Model} (h : (g m).diagnostics = m.diagnostics) :
    (g m).check = g <$> m.check := by
  have hvalidated : (g m).validated = m.validated.map g := by
    unfold validated
    rw [h]
    split <;> rfl
  unfold check
  rw [hvalidated, map_bind, Traced.ofExcept_map]

/-- The stages behind the edges, without packages for references. -/
def markAndCheck (m : Model) : Traced Model := do
  Traced.enter .crossReferences
  let m ← m.analyzeOverrides
  m.check

/-- The model with an import table and its references qualified. -/
def qualifyWith (m : Model) (J : ImportTable) (n : Model) : Model :=
  (n.withImports J).mapTypes (m.withImports J).qualified

/-- References may be qualified after everything else. -/
theorem finish_eq (hm : ∀ e ∈ m.entities, ∀ o ∈ e.operations, o.Unqualified) (J : ImportTable) :
    ((m.withImports J).resolveCrossReferences >>= fun k => k.analyzeOverrides >>= check) =
      m.qualifyWith J <$> m.markAndCheck := by
  -- Neither marking nor the final check looks at the packages of references.
  have hmark : ((m.withImports J).qualifyReferences).markOverrides =
      m.markOverrides.map (m.qualifyWith J) := by
    rw [qualifyReferences_eq_mapTypes,
      markOverrides_mapTypes (m := m.withImports J) (name_qualified _) hm,
      markOverrides_withImports]
    cases m.markOverrides <;> rfl
  have hcheck : ∀ n, (m.qualifyWith J n).check = m.qualifyWith J <$> n.check := by
    intro n
    apply check_map
    exact diagnostics_mapTypes (n.withImports J) _
  unfold resolveCrossReferences analyzeOverrides markAndCheck analyzeOverrides
  simp only [bind_assoc, pure_bind, map_bind, hmark, Traced.ofExcept_map, bind_map_left, hcheck]

/-! ### Two import tables -/

/-- The model of a drawing with any import table, from the edges as they are read with one of
them. -/
theorem ofDrawing_eq (drawing : Node) (I J : ImportTable) :
    ofDrawing drawing J = entitiesOfDrawing drawing I >>= fun d => d.resolveEdges drawing >>=
      fun m => (m.withImports J).resolveCrossReferences >>= fun k =>
        k.analyzeOverrides >>= check := by
  unfold ofDrawing
  rw [entitiesOfDrawing_withImports drawing J I]
  simp only [bind_map_left, resolveEdges_withImports]

/-- Two models with the same packages and the same entities, up to the packages of the references in
the types of members. -/
structure SameButPackages (m n : Model) : Prop where
  packages_eq : m.packages = n.packages
  entities_eq : m.entities.map (Entity.mapTypes fun r => .unqualified r.name) =
    n.entities.map (Entity.mapTypes fun r => .unqualified r.name)

theorem entities_qualifyWith (m : Model) (J : ImportTable) (n : Model) :
    (m.qualifyWith J n).entities.map (Entity.mapTypes fun r => .unqualified r.name) =
      n.entities.map (Entity.mapTypes fun r => .unqualified r.name) := by
  show (n.entities.map _).map _ = _
  rw [List.map_map]
  apply List.map_congr_left
  intro e _
  rw [Function.comp_apply, Entity.mapTypes_mapTypes]
  simp only [name_qualified]

/-- With two import tables, a drawing goes through the same stages with the same warnings, and fails
with the same error or has the same model, up to the packages of the references in the types of
members. -/
theorem agree_ofDrawing (drawing : Node) (I J : ImportTable) :
    Traced.Agree SameButPackages (ofDrawing drawing I) (ofDrawing drawing J) := by
  rw [ofDrawing_eq drawing I I, ofDrawing_eq drawing I J]
  -- Up to the edges, there is one run.
  refine Traced.agree_bind fun d hd => Traced.agree_bind fun m hm => ?_
  obtain ⟨r, -, rfl⟩ := exists_reading_of_resolveEdges hm
  have hunqualified : ∀ e ∈ (d.editEntities (r.applyAt d.typeAt?)).entities,
      ∀ o ∈ e.operations, o.Unqualified := by
    intro e he
    obtain ⟨i, hi, rfl⟩ := List.mem_mapIdx.1 he
    have hdrawn := unqualified_of_mem hd (List.getElem_mem hi)
    exact hdrawn
  rw [finish_eq hunqualified I, finish_eq hunqualified J]
  apply Traced.agree_map
  intro n
  refine ⟨rfl, ?_⟩
  rw [entities_qualifyWith, entities_qualifyWith]

end Model

end ClassDiagram
