import ClassDiagram.Model.OfDrawing
import ClassDiagram.Proofs.Outcome.Traced

/-!
# What the stages leave alone

Every stage after the first two changes the entities of a model only: its packages and its import
table stay (`SameFrame`).  Entities are found by their ids, so that an edge connects the same
positions as long as the ids stay in place (`endpoint_congr`).  `ofDrawing_eq_ok_iff` and
`resolveEdges_eq_ok_iff` take the way from a drawing to its model apart.
-/

namespace ClassDiagram

namespace Model

variable {drawing : Node} {imports : ImportTable} {m n : Model}

/-! ### Packages and imports -/

/-- Two models that may differ in their entities only. -/
def SameFrame (m n : Model) : Prop := ∃ es, n = m.withEntities es

theorem sameFrame_withEntities (m : Model) (es : List Entity) : m.SameFrame (m.withEntities es) :=
  ⟨es, rfl⟩

namespace SameFrame

theorem packages_eq (h : m.SameFrame n) : n.packages = m.packages := by
  obtain ⟨es, rfl⟩ := h
  rfl

theorem imports_eq (h : m.SameFrame n) : n.imports = m.imports := by
  obtain ⟨es, rfl⟩ := h
  rfl

theorem trans {k : Model} (h : m.SameFrame n) (h' : n.SameFrame k) : m.SameFrame k := by
  obtain ⟨es, rfl⟩ := h
  obtain ⟨fs, rfl⟩ := h'
  exact sameFrame_withEntities m fs

end SameFrame

theorem sameFrame_of_resolveGeneralizations
    (h : (m.resolveGeneralizations drawing).result = .ok n) : m.SameFrame n := by
  rw [resolveGeneralizations, Traced.result_enter_bind, Traced.result_bind_eq_ok_iff] at h
  obtain ⟨ends, -, h⟩ := h
  obtain ⟨es, -, rfl⟩ := map_eq_ok_iff.1 h
  exact sameFrame_withEntities m es

theorem sameFrame_of_resolveRealizations (h : (m.resolveRealizations drawing).result = .ok n) :
    m.SameFrame n := by
  rw [resolveRealizations, Traced.result_enter_bind, Traced.result_bind_eq_ok_iff] at h
  obtain ⟨ends, -, h⟩ := h
  cases h
  exact sameFrame_withEntities m _

theorem sameFrame_of_resolveDependencies (h : (m.resolveDependencies drawing).result = .ok n) :
    m.SameFrame n := by
  rw [resolveDependencies, Traced.result_enter_bind, Traced.result_bind_eq_ok_iff] at h
  obtain ⟨ends, -, h⟩ := h
  cases h
  exact sameFrame_withEntities m _

theorem sameFrame_of_resolveAssociations (h : (m.resolveAssociations drawing).result = .ok n) :
    m.SameFrame n := by
  rw [resolveAssociations, Traced.result_enter_bind, Traced.result_bind_eq_ok_iff] at h
  obtain ⟨additions, -, h⟩ := h
  cases h
  exact sameFrame_withEntities m _

theorem sameFrame_of_markOverrides (h : m.markOverrides = .ok n) : m.SameFrame n := by
  obtain ⟨flags, -, rfl⟩ := map_eq_ok_iff.1 h
  exact sameFrame_withEntities m _

/-- The packages and the entities that a drawing spells out come with the given import table. -/
theorem imports_of_entitiesOfDrawing (h : (entitiesOfDrawing drawing imports).result = .ok m) :
    m.imports = imports := by
  rw [entitiesOfDrawing, Traced.result_bind_eq_ok_iff] at h
  obtain ⟨packages, -, h⟩ := h
  obtain ⟨entities, -, h⟩ := Traced.result_bind_eq_ok_iff.1 h
  obtain ⟨m₁, h₁, h⟩ := Traced.result_bind_eq_ok_iff.1 h
  obtain ⟨m₂, h₂, h⟩ := Traced.result_bind_eq_ok_iff.1 h
  cases h₁
  cases h₂
  rw [Traced.result_ofExcept, splitCompanions] at h
  split at h
  · simp at h
  · cases h
    rfl

/-! ### Stage after stage -/

theorem resolveEdges_eq_ok_iff : (m.resolveEdges drawing).result = .ok n ↔
    ∃ m₁ m₂ m₃, (m.resolveGeneralizations drawing).result = .ok m₁ ∧
      (m₁.resolveRealizations drawing).result = .ok m₂ ∧
      (m₂.resolveDependencies drawing).result = .ok m₃ ∧
      (m₃.resolveAssociations drawing).result = .ok n := by
  simp only [resolveEdges, Traced.result_bind_eq_ok_iff]
  constructor
  · rintro ⟨m₁, h₁, m₂, h₂, m₃, h₃, h⟩
    exact ⟨m₁, m₂, m₃, h₁, h₂, h₃, h⟩
  · rintro ⟨m₁, m₂, m₃, h₁, h₂, h₃, h⟩
    exact ⟨m₁, h₁, m₂, h₂, m₃, h₃, h⟩

theorem validated_eq_ok_iff : m.validated = .ok n ↔ m = n ∧ m.diagnostics = [] := by
  rw [validated]
  split
  · next h => simp [List.isEmpty_iff.1 h]
  · next h => simp [List.isEmpty_iff.not.1 h]

/-- The model of a drawing has passed all stages, the last of which changes nothing. -/
theorem ofDrawing_eq_ok_iff : (ofDrawing drawing imports).result = .ok m ↔
    ∃ m₀ m₁, (entitiesOfDrawing drawing imports).result = .ok m₀ ∧
      (m₀.resolveEdges drawing).result = .ok m₁ ∧ m₁.qualifyReferences.markOverrides = .ok m ∧
      m.diagnostics = [] := by
  simp only [ofDrawing, Traced.result_bind_eq_ok_iff, resolveCrossReferences, analyzeOverrides,
    check, Traced.result_enter_bind, Traced.result_ofExcept, validated_eq_ok_iff]
  constructor
  · rintro ⟨m₀, h₀, m₁, h₁, m₂, h₂, m₃, h₃, rfl, hd⟩
    cases h₂
    exact ⟨m₀, m₁, h₀, h₁, h₃, hd⟩
  · rintro ⟨m₀, m₁, h₀, h₁, h₃, hd⟩
    exact ⟨m₀, h₀, m₁, h₁, _, rfl, m, h₃, rfl, hd⟩

/-! ### Positions -/

theorem position?_congr (h : m.entities.map Entity.id = n.entities.map Entity.id) (id : String) :
    m.position? id = n.position? id := by
  -- Only ids are looked at to find an entity.
  have hfind : ∀ es : List Entity,
      (es.findIdx? fun e => e.id = id) = (es.map Entity.id).findIdx? (· = id) := by
    intro es
    rw [List.findIdx?_map]
    rfl
  rw [position?_eq, position?_eq, hfind, hfind, h]

/-- The position that the index finds is that of the first entity with the id. -/
theorem position?_eq_some_iff {id : String} {i : Nat} :
    m.position? id = some i ↔ ∃ e, m.entities[i]? = some e ∧ e.id = id ∧
      ∀ j < i, ∀ f, m.entities[j]? = some f → f.id ≠ id := by
  rw [position?_eq, List.findIdx?_eq_some_iff_getElem]
  constructor
  · rintro ⟨hi, hid, hbefore⟩
    refine ⟨_, List.getElem?_eq_getElem hi, of_decide_eq_true hid, ?_⟩
    intro j hj f hf
    obtain ⟨-, rfl⟩ := List.getElem?_eq_some_iff.1 hf
    simpa using hbefore j hj
  · rintro ⟨e, he, hid, hbefore⟩
    obtain ⟨hlt, rfl⟩ := List.getElem?_eq_some_iff.1 he
    refine ⟨hlt, decide_eq_true hid, ?_⟩
    intro j hj
    simpa using hbefore j hj _ (List.getElem?_eq_getElem (Nat.lt_trans hj hlt))

/-- The entity that the index finds is the first one with the id. -/
theorem entity?_eq_some_iff {id : String} {e : Entity} :
    m.entity? id = some e ↔ ∃ i : Nat, m.entities[i]? = some e ∧ e.id = id ∧
      ∀ j < i, ∀ f, m.entities[j]? = some f → f.id ≠ id := by
  rw [entity?, Option.bind_eq_some_iff]
  refine exists_congr fun i => ?_
  rw [position?_eq_some_iff]
  constructor
  · rintro ⟨⟨d, hd, hid, hbefore⟩, he⟩
    obtain rfl := Option.some.inj (hd.symm.trans he)
    exact ⟨hd, hid, hbefore⟩
  · rintro ⟨he, hid, hbefore⟩
    exact ⟨⟨e, he, hid, hbefore⟩, he⟩

theorem endpoint_congr (h : m.entities.map Entity.id = n.entities.map Entity.id) (edge : Node)
    (handle : UInt64) : m.endpoint edge handle = n.endpoint edge handle := by
  simp only [endpoint, position?_congr h]

theorem lt_length_of_position? {id : String} {i : Nat} (h : m.position? id = some i) :
    i < m.entities.length := by
  rw [position?_eq, List.findIdx?_eq_some_iff_findIdx_eq] at h
  exact h.1

theorem endpoint_eq_ok_iff {edge : Node} {handle : UInt64} {i : Nat} :
    m.endpoint edge handle = .ok i ↔
      ∃ id, edge.connectionTarget handle = .ok id ∧ m.position? id = some i := by
  rw [endpoint, bind_eq_ok_iff]
  refine exists_congr fun id => ?_
  rw [mapError_eq_ok_iff]
  refine and_congr_right fun _ => ?_
  cases m.position? id with
  | none => simp [throw, throwThe, MonadExceptOf.throw]
  | some j => simp [pure, Except.pure]

/-- An edge is attached to positions that there are. -/
theorem lt_length_of_endpoint {edge : Node} {handle : UInt64} {i : Nat}
    (h : m.endpoint edge handle = .ok i) : i < m.entities.length := by
  obtain ⟨id, -, hi⟩ := endpoint_eq_ok_iff.1 h
  exact lt_length_of_position? hi

/-- The source of an edge is found at its handle 0 and the target at its handle 1. -/
theorem endpoints_eq_ok_iff {edge : Node} {x : Endpoints} :
    m.endpoints edge = .ok x ↔
      m.endpoint edge 0 = .ok x.source ∧ m.endpoint edge 1 = .ok x.target := by
  rw [endpoints, bind_eq_ok_iff]
  constructor
  · rintro ⟨source, hs, h⟩
    obtain ⟨target, ht, h⟩ := bind_eq_ok_iff.1 h
    cases h
    exact ⟨hs, ht⟩
  · rintro ⟨hs, ht⟩
    exact ⟨x.source, hs, bind_eq_ok_iff.2 ⟨x.target, ht, rfl⟩⟩

theorem reversedEndpoints_eq_ok_iff {edge : Node} {x : Endpoints} :
    m.reversedEndpoints edge = .ok x ↔
      m.endpoint edge 1 = .ok x.source ∧ m.endpoint edge 0 = .ok x.target := by
  rw [reversedEndpoints, bind_eq_ok_iff]
  constructor
  · rintro ⟨source, hs, h⟩
    obtain ⟨target, ht, h⟩ := bind_eq_ok_iff.1 h
    cases h
    exact ⟨hs, ht⟩
  · rintro ⟨hs, ht⟩
    exact ⟨x.source, hs, bind_eq_ok_iff.2 ⟨x.target, ht, rfl⟩⟩

end Model

end ClassDiagram
