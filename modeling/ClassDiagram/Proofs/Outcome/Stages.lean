import ClassDiagram.Proofs.Outcome.Traced

/-!
# Stages and their errors

Each cause of an error belongs to the stages that can raise it (`ModelError.stages`).  A step stands
in a stage if all errors of the step belong to that stage (`Stage.Covers`).  When stages are taken
one after another, each of them entered first and left with its own errors only
(`Traced.Enters`), the stages entered are the first ones in order, all of them on success, and the
last one entered is the one in which the error was raised (`Traced.locates_foldlM`).
-/

namespace ClassDiagram

variable {α β : Type}

/-! ### Causes -/

/-- The stages that read edges. -/
def Stage.edges : List Stage := [.generalizations, .realizations, .dependencies, .associations]

/-- The stages that look at the drawing. -/
def Stage.reading : List Stage := [.packages, .classes] ++ edges

/-- The stages in which an error can be raised. -/
def ModelError.stages : ModelError → List Stage
  | drawing _ => Stage.reading
  | typeExpr _ _ => [.classes, .associations]
  | conflictingKinds _ _ _ => [.classes]
  | conflictingMutability _ => [.classes]
  | mutabilityMismatch _ _ _ => [.classes, .associations]
  | companionExists _ => [.companions]
  | unresolvedConnection _ _ => Stage.edges
  | multipleGeneralizations _ => [.generalizations]
  | emptyAttributeName _ _ => [.associations]
  | cyclicInheritance _ => [.overrides]
  | invalid _ => [.validation]

/-- No error belongs to a stage that cannot fail. -/
theorem ModelError.packageAssignment_notMem_stages (e : ModelError) :
    Stage.packageAssignment ∉ e.stages := by
  cases e <;> simp [stages, Stage.reading, Stage.edges]

/-- Settling references cannot fail either. -/
theorem ModelError.crossReferences_notMem_stages (e : ModelError) :
    Stage.crossReferences ∉ e.stages := by
  cases e <;> simp [stages, Stage.reading, Stage.edges]

namespace Stage

variable {s : Stage}

/-! ### Outcomes within a stage -/

/-- The outcome is no error, or one that belongs to the stage. -/
def Covers (s : Stage) (x : Except ModelError α) : Prop := ∀ e, x = .error e → s ∈ e.stages

namespace Covers

theorem ok (a : α) : s.Covers (.ok a) := by
  intro e h
  cases h

theorem error {e : ModelError} (he : s ∈ e.stages) : s.Covers (.error e : Except ModelError α) := by
  intro e' h
  cases h
  exact he

theorem bind {x : Except ModelError α} {f : α → Except ModelError β} (hx : s.Covers x)
    (hf : ∀ a, s.Covers (f a)) : s.Covers (x >>= f) := by
  cases x with
  | error e => exact error (hx e rfl)
  | ok a => exact hf a

theorem map {x : Except ModelError α} (hx : s.Covers x) (f : α → β) : s.Covers (x.map f) := by
  cases x with
  | error e => exact error (hx e rfl)
  | ok a => exact ok (f a)

theorem drawing (hs : s ∈ reading) (x : Except DrawingError α) :
    s.Covers (x.mapError .drawing) := by
  cases x with
  | error e => exact error hs
  | ok a => exact ok a

/-- Steps taken over a list stand in a stage in which each of them stands. -/
theorem mapM {f : α → Except ModelError β} (hf : ∀ a, s.Covers (f a)) (l : List α) :
    s.Covers (l.mapM f) := by
  induction l with
  | nil => exact ok []
  | cons a l ih =>
    rw [List.mapM_cons]
    exact (hf a).bind fun b => ih.bind fun bs => ok (b :: bs)

theorem foldlM {f : β → α → Except ModelError β} (hf : ∀ b a, s.Covers (f b a)) (l : List α)
    (b : β) : s.Covers (l.foldlM f b) := by
  induction l generalizing b with
  | nil => exact ok b
  | cons a l ih =>
    rw [List.foldlM_cons]
    exact (hf b a).bind ih

end Covers

end Stage

namespace Traced

variable {s : Stage} {ss : List Stage}

/-! ### Steps within a stage -/

/-- The step enters the given stages in turn, and all its errors belong to the stage `s`. -/
structure Enters (ss : List Stage) (s : Stage) (x : Traced α) : Prop where
  stages_eq : x.stages = ss
  covers : s.Covers x.result

namespace Enters

theorem enter (s : Stage) : (enter s).Enters [s] s := ⟨rfl, .ok ()⟩

theorem ok (a : α) : (ok a).Enters [] s := ⟨rfl, .ok a⟩

theorem warn (ws : List Warning) : (warn ws).Enters [] s := ⟨rfl, .ok ()⟩

theorem ofExcept {r : Except ModelError α} (hr : s.Covers r) : (ofExcept r).Enters [] s := ⟨rfl, hr⟩

theorem ofDrawing (hs : s ∈ Stage.reading) (r : Except DrawingError α) :
    (ofDrawing r).Enters [] s :=
  ofExcept (.drawing hs r)

/-- What comes after the stage has been entered belongs to it if it enters none itself. -/
theorem bind {x : Traced α} {f : α → Traced β} (hx : x.Enters ss s)
    (hf : ∀ a, (f a).Enters [] s) : (x >>= f).Enters ss s := by
  constructor
  · rw [stages_bind, hx.stages_eq]
    cases x.result with
    | error e => exact List.append_nil ss
    | ok a =>
      dsimp only
      rw [(hf a).stages_eq, List.append_nil]
  · rw [result_bind]
    exact hx.covers.bind fun a => (hf a).covers

theorem map {x : Traced α} (hx : x.Enters ss s) (f : α → β) : (f <$> x).Enters ss s := by
  rw [← bind_pure_comp]
  exact hx.bind fun a => ok (f a)

theorem mapM {f : α → Traced β} (hf : ∀ a, (f a).Enters [] s) (l : List α) :
    (l.mapM f).Enters [] s := by
  induction l with
  | nil => exact ok []
  | cons a l ih =>
    rw [List.mapM_cons]
    exact (hf a).bind fun b => ih.bind fun bs => ok (b :: bs)

end Enters

/-! ### One stage after another -/

/-- The stages entered are the first ones of `ss`, namely all of them if there is a value, and those
up to one that the error belongs to if there is an error. -/
structure Locates (ss : List Stage) (x : Traced α) : Prop where
  begins : x.stages <+: ss
  stages_of_ok : ∀ a, x.result = .ok a → x.stages = ss
  stage_of_error : ∀ e, x.result = .error e → ∃ s, x.stages.getLast? = some s ∧ s ∈ e.stages

/-- A stage, and then the others. -/
theorem Enters.locates_bind {x : Traced α} {f : α → Traced β} (hx : x.Enters [s] s)
    (hf : ∀ a, (f a).Locates ss) : (x >>= f).Locates (s :: ss) := by
  cases hr : x.result with
  | error e =>
    -- The way ends in the stage `s`, and the error is one of its own.
    have hstages : (x >>= f).stages = [s] := by rw [stages_bind, hr, hx.stages_eq, List.append_nil]
    have hresult : (x >>= f).result = .error e := by
      rw [result_bind, hr]
      rfl
    refine ⟨?_, ?_, ?_⟩
    · rw [hstages]
      exact List.prefix_append [s] ss
    · intro b hb
      rw [hresult] at hb
      cases hb
    · intro e' he'
      obtain rfl : e = e' := Except.error.inj (hresult.symm.trans he')
      exact ⟨s, by rw [hstages, List.getLast?_singleton], hx.covers e hr⟩
  | ok a =>
    have hstages : (x >>= f).stages = s :: (f a).stages := by
      rw [stages_bind, hr, hx.stages_eq, List.singleton_append]
    have hresult : (x >>= f).result = (f a).result := by
      rw [result_bind, hr]
      rfl
    obtain ⟨hbegins, hok, herror⟩ := hf a
    refine ⟨?_, ?_, ?_⟩
    · rw [hstages]
      exact (List.prefix_cons_inj s).2 hbegins
    · intro b hb
      rw [hstages, hok b (hresult ▸ hb)]
    · intro e he
      obtain ⟨s', hlast, hs'⟩ := herror e (hresult ▸ he)
      refine ⟨s', ?_, hs'⟩
      rw [hstages, List.getLast?_cons, hlast, Option.getD_some]

/-- Stages that are taken one after another, each of them entered first and left with its own
errors only. -/
theorem locates_foldlM {step : α → Stage → Traced α} (hstep : ∀ a s, (step a s).Enters [s] s)
    (ss : List Stage) (a : α) : (ss.foldlM step a).Locates ss := by
  induction ss generalizing a with
  | nil => exact ⟨List.prefix_rfl, fun _ _ => rfl, fun e he => by cases he⟩
  | cons s ss ih =>
    rw [List.foldlM_cons]
    exact (hstep a s).locates_bind ih

end Traced

end ClassDiagram
