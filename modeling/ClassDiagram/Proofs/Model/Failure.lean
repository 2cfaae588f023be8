import ClassDiagram.Proofs.Model.Completion
import ClassDiagram.Proofs.Model.Reachable
import ClassDiagram.Proofs.Model.Stages

/-!
# Where the way to a model fails

A drawing gets its model by all stages in order (`Model.ofDrawing_eq_foldlM`), each of which is
entered first and raises its own errors only (`Model.enters_takeStage`).  So the stages entered tell
where an error comes from (`Model.locatesFailure_ofDrawing`).  An error that lists diagnostics is
raised by the final check and by nothing before it, so that everything else in a drawing has been
read by then (`Model.exists_completion_of_invalid`).
-/

namespace ClassDiagram

variable {α β : Type}

/-! ### The stages entered -/

/-- The stages entered are the first ones, at least one and each of them once: all of them if there
is a value, and those up to one that can raise the error if there is none. -/
structure Traced.LocatesFailure (x : Traced α) : Prop extends x.Locates Stage.all where
  stages_ne_nil : x.stages ≠ []
  nodup : x.stages.Nodup
  /-- No way ends in a stage that cannot fail. -/
  getLast?_ne : ∀ s ∈ [Stage.packageAssignment, .crossReferences], x.stages.getLast? ≠ some s

theorem Traced.Locates.locatesFailure {x : Traced α} (h : x.Locates Stage.all) :
    x.LocatesFailure := by
  -- The last stage is that of the check, or one that an error belongs to.
  have hlast : ∃ s, x.stages.getLast? = some s ∧
      (s = .validation ∨ ∃ e : ModelError, s ∈ e.stages) := by
    cases hr : x.result with
    | error e =>
      obtain ⟨s, hs, he⟩ := h.stage_of_error e hr
      exact ⟨s, hs, .inr ⟨e, he⟩⟩
    | ok a => exact ⟨.validation, by rw [h.stages_of_ok a hr]; rfl, .inl rfl⟩
  obtain ⟨s, hs, hcause⟩ := hlast
  have hnodup : Stage.all.Nodup := by decide
  refine ⟨h, ?_, hnodup.sublist h.begins.sublist, ?_⟩
  · intro hnil
    rw [hnil, List.getLast?_nil] at hs
    cases hs
  · intro t ht hlast
    obtain rfl : s = t := Option.some.inj (hs.symm.trans hlast)
    rcases hcause with rfl | ⟨e, he⟩
    · exact absurd ht (by decide)
    · rcases List.mem_pair.1 ht with rfl | rfl
      · exact e.packageAssignment_notMem_stages he
      · exact e.crossReferences_notMem_stages he

namespace Model

variable {drawing : Node} {imports : ImportTable}

theorem enters_takeStage (drawing : Node) (m : Model) (s : Stage) :
    (m.takeStage drawing s).Enters [s] s := by
  cases s with
  | packages => exact (Package.enters_readAll drawing).map m.withPackages
  | classes => exact (Entity.enters_readAll drawing).map m.withEntities
  | packageAssignment => exact m.enters_packageStage
  | companions => exact m.enters_companionStage_bind
  | generalizations => exact m.enters_resolveGeneralizations drawing
  | realizations => exact m.enters_resolveRealizations drawing
  | dependencies => exact m.enters_resolveDependencies drawing
  | associations => exact m.enters_resolveAssociations drawing
  | crossReferences => exact m.enters_resolveCrossReferences
  | overrides => exact m.enters_analyzeOverrides
  | validation => exact m.enters_check

/-- The stages entered on the way from a drawing to its model tell where the way has ended. -/
theorem locatesFailure_ofDrawing (drawing : Node) (imports : ImportTable) :
    (ofDrawing drawing imports).LocatesFailure := by
  rw [ofDrawing_eq_foldlM]
  exact (Traced.locates_foldlM (enters_takeStage drawing) Stage.all _).locatesFailure

/-- A class without a place in the drawing is not read. -/
example : (ofDrawing { Node.ofKind "diagram" with children := [Node.object "UML - Class" "O0"] }
    .empty).stages = [.packages, .classes] := by decide +kernel

end Model

/-! ### Errors of the final check -/

/-- The outcome is no error of the final check. -/
def Unchecked (x : Except ModelError α) : Prop := ∀ ds, x ≠ .error (.invalid ds)

/-- No other stage raises errors of the final check. -/
theorem Stage.Covers.unchecked {s : Stage} {x : Except ModelError α} (h : s.Covers x)
    (hs : s ≠ .validation) : Unchecked x := by
  intro ds hx
  exact hs (List.mem_singleton.1 (h _ hx))

namespace Unchecked

theorem bind {x : Except ModelError α} {f : α → Except ModelError β} (hx : Unchecked x)
    (hf : ∀ a, Unchecked (f a)) : Unchecked (x >>= f) := by
  cases x with
  | error e =>
    intro ds h
    exact hx ds (congrArg Except.error (Except.error.inj h))
  | ok a => exact hf a

theorem result_bind {x : Traced α} {f : α → Traced β} (hx : Unchecked x.result)
    (hf : ∀ a, Unchecked (f a).result) : Unchecked (x >>= f).result := by
  rw [Traced.result_bind]
  exact hx.bind hf

/-- An error of the final check comes from the second step. -/
theorem exists_of_bind {x : Traced α} {f : α → Traced β} {ds : List Diagnostic}
    (hx : Unchecked x.result) (h : (x >>= f).result = .error (.invalid ds)) :
    ∃ a, x.result = .ok a ∧ (f a).result = .error (.invalid ds) := by
  rw [Traced.result_bind] at h
  cases hr : x.result with
  | error e =>
    rw [hr] at h hx
    exact absurd (congrArg Except.error (Except.error.inj h)) (hx ds)
  | ok a =>
    rw [hr] at h
    exact ⟨a, rfl, h⟩

end Unchecked

open Unchecked

namespace Model

variable {drawing : Node} {imports : ImportTable}

theorem unchecked_entitiesOfDrawing (drawing : Node) (imports : ImportTable) :
    Unchecked (entitiesOfDrawing drawing imports).result := by
  refine result_bind ((Package.enters_readAll drawing).covers.unchecked (by decide))
    fun packages => ?_
  refine result_bind ((Entity.enters_readAll drawing).covers.unchecked (by decide))
    fun entities => ?_
  refine result_bind ((enters_packageStage _).covers.unchecked (by decide)) fun m => ?_
  exact m.enters_companionStage_bind.covers.unchecked (by decide)

theorem unchecked_resolveEdges (m : Model) : Unchecked (m.resolveEdges drawing).result := by
  refine result_bind ((m.enters_resolveGeneralizations drawing).covers.unchecked (by decide))
    fun m => ?_
  refine result_bind ((m.enters_resolveRealizations drawing).covers.unchecked (by decide))
    fun m => ?_
  refine result_bind ((m.enters_resolveDependencies drawing).covers.unchecked (by decide))
    fun m => ?_
  exact (m.enters_resolveAssociations drawing).covers.unchecked (by decide)

/-- Where the diagnostics of the final check are the error, they are those of a model that the
drawing has been read to. -/
theorem exists_completion_of_invalid {ds : List Diagnostic}
    (h : (ofDrawing drawing imports).result = .error (.invalid ds)) :
    ∃ d r m, (entitiesOfDrawing drawing imports).result = .ok d ∧ d.Completes drawing r m ∧
      m.diagnostics = ds := by
  -- The error is handed on from stage to stage until the check is left.
  obtain ⟨d, hd, h⟩ := (unchecked_entitiesOfDrawing drawing imports).exists_of_bind h
  obtain ⟨m₁, hedges, h⟩ := d.unchecked_resolveEdges.exists_of_bind h
  obtain ⟨m₂, hqualified, h⟩ :=
    (m₁.enters_resolveCrossReferences.covers.unchecked (by decide)).exists_of_bind h
  obtain ⟨m, hmarked, h⟩ :=
    (m₂.enters_analyzeOverrides.covers.unchecked (by decide)).exists_of_bind h
  have hcheck : m.validated = .error (.invalid ds) := h
  cases hqualified
  obtain ⟨r, hreads, rfl⟩ := exists_reading_of_resolveEdges hedges
  refine ⟨d, r, m, hd, ⟨hreads, hmarked⟩, ?_⟩
  rw [validated] at hcheck
  split at hcheck
  · cases hcheck
  · cases hcheck
    rfl

end Model

end ClassDiagram
