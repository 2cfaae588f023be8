import ClassDiagram.Outcome.Traced
import ClassDiagram.Proofs.Outcome.Except

/-!
# Traced results

A traced step made of two succeeds just when both do (`Traced.result_bind_eq_ok_iff`), and the
result of a traced list of steps is the list of the results (`Traced.result_mapM`).  The warnings of
a step that succeeds are put together from those of its parts (`Traced.Reports`).  Two steps agree
if they leave the same trace and either fail with the same error or have related values
(`Traced.Agree`).
-/

namespace ClassDiagram

namespace Traced

variable {α β : Type}

theorem result_bind_eq_ok_iff {x : Traced α} {f : α → Traced β} {b : β} :
    (x >>= f).result = .ok b ↔ ∃ a, x.result = .ok a ∧ (f a).result = .ok b := by
  rw [result_bind, bind_eq_ok_iff]

@[simp] theorem result_enter_bind (s : Stage) (f : Unit → Traced β) :
    (enter s >>= f).result = (f ()).result := by
  rw [result_bind]
  rfl

@[simp] theorem result_liftM (r : Except ModelError α) : (liftM r : Traced α).result = r := rfl

theorem result_liftM_eq_ok_iff {r : Except DrawingError α} {a : α} :
    (liftM r : Traced α).result = .ok a ↔ r = .ok a :=
  mapError_eq_ok_iff

theorem result_mapM (f : α → Traced β) (l : List α) :
    (l.mapM f).result = l.mapM fun a => (f a).result := by
  induction l with
  | nil => rfl
  | cons a l ih =>
    simp only [List.mapM_cons, result_bind, ih]
    rfl

/-- Steps taken over a list succeed just when each of them does. -/
theorem result_mapM_eq_ok_iff {f : α → Traced β} {l : List α} {bs : List β} :
    (l.mapM f).result = .ok bs ↔ List.Forall₂ (fun a b => (f a).result = .ok b) l bs := by
  rw [result_mapM, mapM_eq_ok_iff]

theorem ofExcept_map (f : α → β) (r : Except ModelError α) :
    (ofExcept (r.map f) : Traced β) = f <$> ofExcept r := by
  cases r <;> rfl

/-! ### Warnings -/

/-- If the step succeeds, it has raised the warnings `ws` and no others. -/
def Reports (x : Traced α) (ws : List Warning) : Prop := ∀ a, x.result = .ok a → x.warnings = ws

theorem reports_ok (a : α) : (ok a).Reports [] := fun _ _ => rfl

theorem reports_ofExcept (r : Except ModelError α) : (ofExcept r).Reports [] := fun _ _ => rfl

theorem reports_ofDrawing (r : Except DrawingError α) : (ofDrawing r).Reports [] := fun _ _ => rfl

/-- A step that fails need not account for its warnings. -/
theorem reports_fail (e : ModelError) (ws : List Warning) : (fail e : Traced α).Reports ws := by
  intro a h
  cases h

theorem reports_bind {x : Traced α} {f : α → Traced β} {us vs : List Warning} (hx : x.Reports us)
    (hf : ∀ a, x.result = .ok a → (f a).Reports vs) : (x >>= f).Reports (us ++ vs) := by
  intro b h
  obtain ⟨a, ha, hb⟩ := result_bind_eq_ok_iff.1 h
  rw [warnings_bind, ha, hx a ha]
  exact congrArg (us ++ ·) (hf a ha b hb)

theorem reports_nil_bind {x : Traced α} {f : α → Traced β} {ws : List Warning} (hx : x.Reports [])
    (hf : ∀ a, x.result = .ok a → (f a).Reports ws) : (x >>= f).Reports ws :=
  reports_bind hx hf

theorem reports_bind_nil {x : Traced α} {f : α → Traced β} {ws : List Warning} (hx : x.Reports ws)
    (hf : ∀ a, (f a).Reports []) : (x >>= f).Reports ws := by
  rw [← List.append_nil ws]
  exact reports_bind hx fun a _ => hf a

/-- What is read from a drawing raises no warnings, but those that follow may depend on it. -/
theorem reports_liftM_bind {r : Except DrawingError α} {f : α → Traced β} {ws : List Warning}
    (hf : ∀ a, r = .ok a → (f a).Reports ws) : (liftM r >>= f).Reports ws :=
  reports_nil_bind (reports_ofDrawing r) fun a ha => hf a (result_liftM_eq_ok_iff.1 ha)

theorem reports_enter_bind {s : Stage} {f : Unit → Traced β} {ws : List Warning}
    (hf : (f ()).Reports ws) : (enter s >>= f).Reports ws :=
  reports_nil_bind (fun _ _ => rfl) fun _ _ => hf

theorem reports_warn_bind {us ws : List Warning} {f : Unit → Traced β}
    (hf : (f ()).Reports ws) : (warn us >>= f).Reports (us ++ ws) :=
  reports_bind (fun _ _ => rfl) fun _ _ => hf

/-- The warnings of a list of steps are those of the steps, in order. -/
theorem reports_mapM {f : α → Traced β} {ws : α → List Warning} {l : List α}
    (h : ∀ a ∈ l, (f a).Reports (ws a)) : (l.mapM f).Reports (l.flatMap ws) := by
  induction l with
  | nil => exact reports_ok []
  | cons a l ih =>
    obtain ⟨ha, hl⟩ := List.forall_mem_cons.1 h
    rw [List.mapM_cons, List.flatMap_cons]
    refine reports_bind ha fun b _ => ?_
    exact reports_bind_nil (ih hl) fun bs => reports_ok (b :: bs)

theorem reports_mapM_nil {f : α → Traced β} (h : ∀ a, (f a).Reports []) (l : List α) :
    (l.mapM f).Reports [] := by
  have hl := reports_mapM (l := l) fun a _ => h a
  rwa [List.flatMap_eq_nil_iff.2 fun a _ => rfl] at hl

/-- A list of steps with at most one warning each. -/
theorem reports_mapM_filterMap {f : α → Traced β} {w? : α → Option Warning} {l : List α}
    (h : ∀ a ∈ l, (f a).Reports (w? a).toList) : (l.mapM f).Reports (l.filterMap w?) := by
  rw [List.filterMap_eq_flatMap_toList]
  exact reports_mapM h

/-! ### Two runs -/

/-- The same error, or two values that are related. -/
inductive Outcomes (R : α → α → Prop) : Except ModelError α → Except ModelError α → Prop
  | error (e : ModelError) : Outcomes R (.error e) (.error e)
  | ok {a b : α} (h : R a b) : Outcomes R (.ok a) (.ok b)

/-- Two steps that enter the same stages, raise the same warnings, and fail with the same error or
have related values. -/
structure Agree (R : α → α → Prop) (x y : Traced α) : Prop where
  stages_eq : x.stages = y.stages
  warnings_eq : x.warnings = y.warnings
  outcomes : Outcomes R x.result y.result

variable {R : α → α → Prop}

/-- After the same first step, steps that agree on its value agree. -/
theorem agree_bind {x : Traced β} {f g : β → Traced α}
    (h : ∀ b, x.result = .ok b → Agree R (f b) (g b)) : Agree R (x >>= f) (x >>= g) := by
  cases hx : x.result with
  | error e =>
    refine ⟨?_, ?_, ?_⟩
    · rw [stages_bind, stages_bind, hx]
    · rw [warnings_bind, warnings_bind, hx]
    · rw [result_bind, result_bind, hx]
      exact .error e
  | ok b =>
    have hb := h b hx
    refine ⟨?_, ?_, ?_⟩
    · rw [stages_bind, stages_bind, hx]
      exact congrArg _ hb.stages_eq
    · rw [warnings_bind, warnings_bind, hx]
      exact congrArg _ hb.warnings_eq
    · rw [result_bind, result_bind, hx]
      exact hb.outcomes

theorem agree_map {f g : β → α} (h : ∀ b, R (f b) (g b)) (x : Traced β) :
    Agree R (f <$> x) (g <$> x) := by
  rw [← bind_pure_comp, ← bind_pure_comp]
  exact agree_bind fun b _ => ⟨rfl, rfl, .ok (h b)⟩

end Traced

end ClassDiagram
