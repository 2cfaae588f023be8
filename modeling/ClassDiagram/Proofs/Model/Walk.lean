import ClassDiagram.Proofs.Model.Ancestry

/-!
# The walk along superclasses

From an entity, the walk goes on to the superclass as long as the reference to that is new and the
model has such an entity (`Model.Walk`).  There is one such walk from every entity
(`Model.exists_walk`, `Model.Walk.unique`), also in models with cycles, with repeated references and
with superclasses that are nowhere: as every step takes an entity off those whose references have
not been met, there are no more steps than entities (`Model.Walk.length_le_unvisited`).

Searching for ancestors reports where the walk has stopped: at a superclass whose reference has been
met, which is an error with all references of the walk, or else with the superclasses and the mixins
on the way (`Model.exists_reportsWalk`).
-/

namespace ClassDiagram

namespace Model

variable {m : Model} {seen : List EntityRef} {e : Entity} {rest : List Entity}

/-! ### Walks -/

/-- The walk from an entity, up to which the references `seen` have been met, leads to the entities
`rest` in turn. -/
inductive Walk (m : Model) : List EntityRef → Entity → List Entity → Prop
  | stop {seen : List EntityRef} {e : Entity}
    (h : ∀ r, e.superclassRef? = some r → r ∈ seen ∨ m.resolveAncestor r = none) : Walk m seen e []
  | step {seen : List EntityRef} {e parent : Entity} {r : EntityRef} {rest : List Entity}
    (hr : e.superclassRef? = some r) (hnew : r ∉ seen) (hp : m.resolveAncestor r = some parent)
    (hrest : Walk m (seen ++ [r]) parent rest) : Walk m seen e (parent :: rest)

theorem exists_walk (m : Model) (seen : List EntityRef) (e : Entity) :
    ∃ rest, m.Walk seen e rest := by
  induction seen, e using ancestorsFrom.induct m with
  | case1 seen e hr => exact ⟨[], .stop fun r h => by simp [hr] at h⟩
  | case2 seen e r hr hmem =>
    refine ⟨[], .stop fun r' h => .inl ?_⟩
    obtain rfl : r = r' := Option.some.inj (hr.symm.trans h)
    exact hmem
  | case3 seen e r hr hmem hp =>
    refine ⟨[], .stop fun r' h => .inr ?_⟩
    obtain rfl : r = r' := Option.some.inj (hr.symm.trans h)
    exact hp
  | case4 seen e r hr hmem parent hp ih =>
    obtain ⟨rest, hrest⟩ := ih
    exact ⟨parent :: rest, .step hr hmem hp hrest⟩

namespace Walk

theorem unique (h : m.Walk seen e rest) {rest' : List Entity} (h' : m.Walk seen e rest') :
    rest = rest' := by
  induction h generalizing rest' with
  | stop hstop =>
    cases h' with
    | stop => rfl
    | step hr hnew hp _ =>
      rcases hstop _ hr with hmem | hnone
      · exact absurd hmem hnew
      · simp [hp] at hnone
  | step hr hnew hp _ ih =>
    cases h' with
    | stop hstop =>
      rcases hstop _ hr with hmem | hnone
      · exact absurd hmem hnew
      · simp [hp] at hnone
    | step hr' hnew' hp' hrest' =>
      obtain rfl := Option.some.inj (hr.symm.trans hr')
      obtain rfl := Option.some.inj (hp.symm.trans hp')
      rw [ih hrest']

/-- Every step takes an entity off those whose references have not been met. -/
theorem length_le_unvisited (h : m.Walk seen e rest) : rest.length ≤ m.unvisited seen := by
  induction h with
  | stop => exact Nat.zero_le _
  | @step seen e parent r rest hr hnew hp _ ih =>
    have hlt := unvisited_append_lt hnew hp
    rw [List.length_cons]
    omega

theorem length_le (h : m.Walk seen e rest) : rest.length ≤ m.entities.length :=
  Nat.le_trans h.length_le_unvisited List.countP_le_length

/-! ### What the search for ancestors reports -/

/-- The references met, with and without the first step. -/
theorem met_eq {r : EntityRef} {parent : Entity} (hp : m.resolveAncestor r = some parent)
    (seen : List EntityRef) (rest : List Entity) :
    seen ++ (parent :: rest).map Entity.reference = seen ++ [r] ++ rest.map Entity.reference := by
  rw [List.map_cons, reference_of_resolveAncestor hp, List.append_cons]

/-- Where the walk stops without coming back, the search finds the superclasses with the mixins on
the way. -/
theorem ancestorsFrom_eq_ok (h : m.Walk seen e rest)
    (hend : ∀ r ∈ seen ++ rest.map Entity.reference,
      (rest.getLastD e).superclassRef? ≠ some r) :
    m.ancestorsFrom seen e = .ok (m.mixinsOf e ++ rest.flatMap fun a => a :: m.mixinsOf a) := by
  induction h with
  | @stop seen e hstop =>
    rw [List.map_nil, List.append_nil] at hend
    rw [List.flatMap_nil, List.append_nil]
    cases hr : e.superclassRef? with
    | none => exact ancestorsFrom_of_root hr
    | some r =>
      have hnew : r ∉ seen := fun hmem => hend r hmem hr
      exact ancestorsFrom_of_missing hr hnew ((hstop r hr).resolve_left hnew)
  | step hr hnew hp _ ih =>
    rw [met_eq hp, List.getLastD_cons] at hend
    rw [ancestorsFrom_of_parent hr hnew hp, ih hend]
    rfl

/-- Where the walk comes back to a reference, the search fails with all references met. -/
theorem ancestorsFrom_eq_error (h : m.Walk seen e rest) {r : EntityRef}
    (hmem : r ∈ seen ++ rest.map Entity.reference)
    (hr : (rest.getLastD e).superclassRef? = some r) :
    m.ancestorsFrom seen e =
      .error (.cyclicInheritance (seen ++ rest.map Entity.reference ++ [r])) := by
  induction h with
  | stop =>
    rw [List.map_nil, List.append_nil] at hmem ⊢
    exact ancestorsFrom_of_cycle hr hmem
  | step hr' hnew hp _ ih =>
    rw [met_eq hp] at hmem ⊢
    rw [List.getLastD_cons] at hr
    rw [ancestorsFrom_of_parent hr' hnew hp, ih hmem hr]
    rfl

/-- The search succeeds just where the walk does not come back. -/
theorem ancestorsFrom_eq_ok_iff (h : m.Walk seen e rest) {as : List Entity} :
    m.ancestorsFrom seen e = .ok as ↔
      (∀ r ∈ seen ++ rest.map Entity.reference, (rest.getLastD e).superclassRef? ≠ some r) ∧
        as = m.mixinsOf e ++ rest.flatMap fun a => a :: m.mixinsOf a := by
  constructor
  · intro has
    have hend : ∀ r ∈ seen ++ rest.map Entity.reference,
        (rest.getLastD e).superclassRef? ≠ some r := by
      intro r hmem hr
      rw [h.ancestorsFrom_eq_error hmem hr] at has
      cases has
    rw [h.ancestorsFrom_eq_ok hend] at has
    exact ⟨hend, (Except.ok.inj has).symm⟩
  · rintro ⟨hend, rfl⟩
    exact h.ancestorsFrom_eq_ok hend

/-- The search fails just where the walk comes back. -/
theorem ancestorsFrom_eq_error_iff (h : m.Walk seen e rest) {err : ModelError} :
    m.ancestorsFrom seen e = .error err ↔
      ∃ r ∈ seen ++ rest.map Entity.reference, (rest.getLastD e).superclassRef? = some r ∧
        err = .cyclicInheritance (seen ++ rest.map Entity.reference ++ [r]) := by
  constructor
  · intro herr
    have hback : ∃ r ∈ seen ++ rest.map Entity.reference,
        (rest.getLastD e).superclassRef? = some r := by
      by_contra hnone
      push Not at hnone
      rw [h.ancestorsFrom_eq_ok hnone] at herr
      cases herr
    obtain ⟨r, hmem, hr⟩ := hback
    rw [h.ancestorsFrom_eq_error hmem hr] at herr
    exact ⟨r, hmem, hr, (Except.error.inj herr).symm⟩
  · rintro ⟨r, hmem, hr, rfl⟩
    exact h.ancestorsFrom_eq_error hmem hr

end Walk

/-- The walk from `e` leads to the entities `rest`, and the search for the ancestors of `e` reports
what is on it: it fails just when the superclass of the last entity has a reference that has been
met, and then with all references of the walk and that one at the end; otherwise it finds each
entity of the walk after `e`, with the mixins of each entity, `e` included, right behind it. -/
structure ReportsWalk (m : Model) (e : Entity) (rest : List Entity) : Prop where
  walk : m.Walk [e.reference] e rest
  unique : ∀ rest', m.Walk [e.reference] e rest' → rest = rest'
  length_le : rest.length ≤ m.entities.length
  error_iff : ∀ err, m.ancestors e = .error err ↔
    ∃ r ∈ (e :: rest).map Entity.reference, (rest.getLastD e).superclassRef? = some r ∧
      err = .cyclicInheritance ((e :: rest).map Entity.reference ++ [r])
  ok_iff : ∀ as, m.ancestors e = .ok as ↔
    (∀ r ∈ (e :: rest).map Entity.reference, (rest.getLastD e).superclassRef? ≠ some r) ∧
      as = m.mixinsOf e ++ rest.flatMap fun a => a :: m.mixinsOf a

/-- The walk from an entity of any model ends after at most as many steps as there are entities, and
the search for ancestors reports what is on it. -/
theorem exists_reportsWalk (m : Model) (e : Entity) : ∃ rest, m.ReportsWalk e rest := by
  obtain ⟨rest, h⟩ := m.exists_walk [e.reference] e
  refine ⟨rest, h, fun _ h' => h.unique h', h.length_le, ?_, ?_⟩
  · intro err
    exact h.ancestorsFrom_eq_error_iff
  · intro as
    exact h.ancestorsFrom_eq_ok_iff

end Model

end ClassDiagram
