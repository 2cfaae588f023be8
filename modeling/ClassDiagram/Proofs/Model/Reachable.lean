import ClassDiagram.Proofs.Model.Companions

/-!
# Finding entities in every model that can be made

A model is made from the empty one by a sequence of changes (`Model.Change`, `Model.Reachable`): its
parts are replaced, a function is applied to its entities, or one of the stages is taken with some
drawing.  The stages are those of the way from a drawing to its model
(`Model.ofDrawing_eq_foldlM`).

A change either builds the index anew from the entities that it leaves, or takes both over from the
model before it (`Model.indexed_of_apply`).  So in every model that can be made, an id leads to the
first entity that has it and to nothing else (`Model.findsFirst_of_reachable`), whether or not other
entities have the id too.
-/

namespace ClassDiagram

namespace Model

/-! ### Stages -/

/-- The model after one stage. -/
def takeStage (drawing : Node) (m : Model) : Stage → Traced Model
  | .packages => m.withPackages <$> Package.readAll drawing
  | .classes => m.withEntities <$> Entity.readAll drawing
  | .packageAssignment => m.packageStage
  | .companions => do
    let m ← m.companionStage
    Traced.ofExcept m.splitCompanions
  | .generalizations => m.resolveGeneralizations drawing
  | .realizations => m.resolveRealizations drawing
  | .dependencies => m.resolveDependencies drawing
  | .associations => m.resolveAssociations drawing
  | .crossReferences => m.resolveCrossReferences
  | .overrides => m.analyzeOverrides
  | .validation => m.check

/-- A drawing gets its model by all the stages in order, from a model that has an import table and
nothing else. -/
theorem ofDrawing_eq_foldlM (drawing : Node) (imports : ImportTable) :
    ofDrawing drawing imports = Stage.all.foldlM (takeStage drawing) (empty.withImports imports) := by
  have hparts : ∀ packages entities,
      ((empty.withImports imports).withPackages packages).withEntities entities =
        ofParts packages entities imports := fun _ _ => rfl
  simp only [Stage.all, List.foldlM_cons, List.foldlM_nil, takeStage, ofDrawing, entitiesOfDrawing,
    resolveEdges, bind_assoc, bind_map_left, hparts, bind_pure]

/-! ### Changes -/

/-- A change of a model. -/
inductive Change where
  /-- The packages are replaced. -/
  | packages (packages : List Package)
  /-- The import table is replaced. -/
  | imports (imports : ImportTable)
  /-- The entities are replaced. -/
  | entities (entities : List Entity)
  /-- A model is put together from its parts. -/
  | parts (packages : List Package) (entities : List Entity) (imports : ImportTable)
  /-- A function is applied to every entity. -/
  | map (f : Entity → Entity)
  /-- A stage is taken with a drawing. -/
  | stage (drawing : Node) (stage : Stage)

/-- The model after a change. -/
def Change.apply (m : Model) : Change → Traced Model
  | .packages ps => return m.withPackages ps
  | .imports t => return m.withImports t
  | .entities es => return m.withEntities es
  | .parts ps es t => return ofParts ps es t
  | .map f => return m.mapEntities f
  | .stage drawing s => m.takeStage drawing s

/-- The models that can be made from the empty one, change by change. -/
inductive Reachable : Model → Prop
  | empty : Reachable empty
  | change {m n : Model} (c : Change) (h : Reachable m) (hn : (c.apply m).result = .ok n) :
      Reachable n

variable {drawing : Node} {imports : ImportTable} {m n : Model} {id : String}

/-- Changes lead from a model that can be made to another one. -/
theorem Reachable.foldlM {cs : List Change} (h : m.Reachable)
    (hn : (cs.foldlM Change.apply m).result = .ok n) : n.Reachable := by
  induction cs generalizing m with
  | nil =>
    cases hn
    exact h
  | cons c cs ih =>
    rw [List.foldlM_cons, Traced.result_bind_eq_ok_iff] at hn
    obtain ⟨k, hk, hn⟩ := hn
    exact ih (.change c h hk) hn

/-- The model of a drawing can be made. -/
theorem reachable_of_ofDrawing (h : (ofDrawing drawing imports).result = .ok m) : m.Reachable := by
  have hchanges : ofDrawing drawing imports =
      (Change.imports imports :: Stage.all.map (.stage drawing)).foldlM Change.apply empty := by
    simp only [ofDrawing_eq_foldlM, List.foldlM_cons, List.foldlM_map, Change.apply, pure_bind]
  rw [hchanges] at h
  exact Reachable.empty.foldlM h

/-! ### The index -/

/-- The index finds the position of the first entity of each id. -/
def Indexed (m : Model) : Prop :=
  ∀ id, m.index.find? id = m.entities.findIdx? fun e => e.id = id

theorem indexed_ofParts (packages : List Package) (entities : List Entity) (imports : ImportTable) :
    (ofParts packages entities imports).Indexed :=
  find?_indexOf entities

/-- Whatever replaces the entities builds the index anew. -/
theorem SameFrame.indexed (h : m.SameFrame n) : n.Indexed := by
  obtain ⟨es, rfl⟩ := h
  exact indexed_ofParts m.packages es m.imports

/-- A stage keeps the index with the entities or builds it anew. -/
theorem indexed_of_takeStage (h : m.Indexed) {s : Stage}
    (hn : (m.takeStage drawing s).result = .ok n) : n.Indexed := by
  cases s with
  | packages =>
    rw [takeStage, ← bind_pure_comp, Traced.result_bind_eq_ok_iff] at hn
    obtain ⟨packages, -, hn⟩ := hn
    cases hn
    exact h
  | classes =>
    rw [takeStage, ← bind_pure_comp, Traced.result_bind_eq_ok_iff] at hn
    obtain ⟨entities, -, hn⟩ := hn
    cases hn
    exact (sameFrame_withEntities m entities).indexed
  | packageAssignment | crossReferences =>
    cases hn
    exact (sameFrame_withEntities m _).indexed
  | companions =>
    rw [takeStage, Traced.result_bind_eq_ok_iff] at hn
    obtain ⟨k, -, hn⟩ := hn
    obtain ⟨-, rfl⟩ := splitCompanions_eq_ok_iff.1 hn
    exact (sameFrame_withEntities k _).indexed
  | generalizations => exact (sameFrame_of_resolveGeneralizations hn).indexed
  | realizations => exact (sameFrame_of_resolveRealizations hn).indexed
  | dependencies => exact (sameFrame_of_resolveDependencies hn).indexed
  | associations => exact (sameFrame_of_resolveAssociations hn).indexed
  | overrides => exact (sameFrame_of_markOverrides hn).indexed
  | validation =>
    obtain ⟨rfl, -⟩ := validated_eq_ok_iff.1 hn
    exact h

/-- A change keeps the index with the entities or builds it anew. -/
theorem indexed_of_apply (h : m.Indexed) {c : Change} (hn : (c.apply m).result = .ok n) :
    n.Indexed := by
  cases c with
  | packages packages | imports imports =>
    cases hn
    exact h
  | entities entities =>
    cases hn
    exact (sameFrame_withEntities m entities).indexed
  | parts packages entities imports =>
    cases hn
    exact indexed_ofParts packages entities imports
  | map f =>
    cases hn
    exact (sameFrame_withEntities m _).indexed
  | stage drawing s => exact indexed_of_takeStage h hn

theorem Reachable.indexed (h : m.Reachable) : m.Indexed := by
  induction h with
  | empty => exact indexed_ofParts [] [] .empty
  | change c _ hn ih => exact indexed_of_apply ih hn

/-! ### Finding entities -/

/-- The id leads to the first entity that has it and to nothing else. -/
structure FindsFirst (m : Model) (id : String) : Prop where
  /-- The position found is that of an entity with the id, and none before it has the id. -/
  position?_eq_some_iff : ∀ i, m.position? id = some i ↔ ∃ h : i < m.entities.length,
    m.entities[i].id = id ∧ ∀ j (hj : j < i), m.entities[j].id ≠ id
  /-- No position is found just when no entity has the id. -/
  position?_eq_none_iff : m.position? id = none ↔ ∀ e ∈ m.entities, e.id ≠ id
  /-- There is an entity at a position that is found, and it is the one found. -/
  entity?_eq : ∀ i, m.position? id = some i →
    ∃ h : i < m.entities.length, m.entity? id = some m.entities[i]
  /-- Without a position there is no entity either. -/
  entity?_eq_none : m.position? id = none → m.entity? id = none
  /-- The model has the id just when some entity has it. -/
  containsEntity_iff : m.containsEntity id = true ↔ ∃ e ∈ m.entities, e.id = id

theorem Indexed.findsFirst (h : m.Indexed) (id : String) : m.FindsFirst id := by
  have hposition : m.position? id = m.entities.findIdx? fun e => e.id = id := h id
  refine ⟨?_, ?_, ?_, ?_, ?_⟩
  · intro i
    rw [hposition, List.findIdx?_eq_some_iff_getElem]
    simp
  · rw [hposition, List.findIdx?_eq_none_iff]
    simp
  · intro i hi
    rw [entity?, hi, Option.bind_some]
    rw [hposition, List.findIdx?_eq_some_iff_getElem] at hi
    obtain ⟨hlt, -⟩ := hi
    exact ⟨hlt, List.getElem?_eq_getElem hlt⟩
  · intro hnone
    rw [entity?, hnone, Option.bind_none]
  · have hcontains : m.containsEntity id = (m.position? id).isSome := rfl
    rw [hcontains, hposition, List.findIdx?_isSome, List.any_eq_true]
    simp

/-- In every model that can be made, an id leads to the first entity that has it. -/
theorem findsFirst_of_reachable (h : m.Reachable) (id : String) : m.FindsFirst id :=
  h.indexed.findsFirst id

/-- The counter gives its members to a companion, which stands between it and the other class, and
gets the id of that class. -/
def renamedCounter : List Change :=
  [.stage counterDrawing .classes, .stage counterDrawing .companions,
    .map fun e => if e.id = "O0" then { e with id := "O1" } else e]

theorem findsFirst_of_renamedCounter :
    ∃ m, (renamedCounter.foldlM Change.apply empty).result = .ok m ∧ m.Reachable ∧
      m.entities.map Entity.id = ["O1", "O0_companion", "O1"] ∧
      m.FindsFirst "O1" ∧ m.position? "O1" = some 0 ∧
      m.FindsFirst "O0" ∧ m.position? "O0" = none := by
  have hmodel : (renamedCounter.foldlM Change.apply empty).result.toOption.map (fun m =>
      (m.entities.map Entity.id, m.position? "O1", m.position? "O0")) =
      some (["O1", "O0_companion", "O1"], some 0, none) := by decide +kernel
  obtain ⟨m, hm, hfound⟩ := exists_eq_ok_of_toOption_map hmodel
  obtain ⟨hids, hpositions⟩ := Prod.mk.inj hfound
  obtain ⟨hfirst, hnone⟩ := Prod.mk.inj hpositions
  have hreachable : m.Reachable := Reachable.empty.foldlM hm
  exact ⟨m, hm, hreachable, hids, findsFirst_of_reachable hreachable "O1", hfirst,
    findsFirst_of_reachable hreachable "O0", hnone⟩

end Model

end ClassDiagram
