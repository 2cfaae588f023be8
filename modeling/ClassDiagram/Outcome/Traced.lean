import ClassDiagram.Outcome.Error
import ClassDiagram.Outcome.Stage
import ClassDiagram.Outcome.Warning

/-!
# Traced results

A step on the way from a drawing to a model gives a value or an error, and with either of them the
stages entered and the warnings raised on the way, in order.  Steps are put together by `bind`: the
second step is taken only if the first one succeeds, and its trace follows that of the first
(`stages_bind`, `warnings_bind`).
-/

namespace ClassDiagram

/-- A value or an error, with what was entered and reported on the way to it. -/
structure Traced (α : Type) where
  /-- The stages entered. -/
  stages : List Stage
  /-- The warnings raised. -/
  warnings : List Warning
  /-- The value, or why there is none. -/
  result : Except ModelError α

namespace Traced

variable {α β γ : Type}

@[ext] theorem ext {x y : Traced α} (hs : x.stages = y.stages) (hw : x.warnings = y.warnings)
    (hr : x.result = y.result) : x = y := by
  cases x
  cases y
  cases hs
  cases hw
  cases hr
  rfl

/-! ### Steps -/

/-- A result without a trace. -/
def ofExcept (r : Except ModelError α) : Traced α := ⟨[], [], r⟩

/-- A value without a trace. -/
def ok (a : α) : Traced α := ofExcept (.ok a)

/-- An error without a trace. -/
def fail (e : ModelError) : Traced α := ofExcept (.error e)

/-- Enters a stage. -/
def enter (s : Stage) : Traced Unit := ⟨[s], [], .ok ()⟩

/-- Raises warnings. -/
def warn (ws : List Warning) : Traced Unit := ⟨[], ws, .ok ()⟩

/-- What can be read from a drawing. -/
def ofDrawing (r : Except DrawingError α) : Traced α :=
  ofExcept (r.mapError .drawing)

/-- One step after another. -/
def bind (x : Traced α) (f : α → Traced β) : Traced β :=
  match x.result with
  | .ok a => ⟨x.stages ++ (f a).stages, x.warnings ++ (f a).warnings, (f a).result⟩
  | .error e => ⟨x.stages, x.warnings, .error e⟩

instance : Monad Traced where
  pure := ok
  bind := bind

instance : MonadLift (Except ModelError) Traced := ⟨ofExcept⟩

instance : MonadLift (Except DrawingError) Traced := ⟨ofDrawing⟩

/-! ### Laws -/

@[simp] theorem pure_eq_ok (a : α) : (pure a : Traced α) = ok a := rfl

theorem bind_eq (x : Traced α) (f : α → Traced β) : x >>= f = x.bind f := rfl

@[simp] theorem result_ofExcept (r : Except ModelError α) : (ofExcept r).result = r := rfl

@[simp] theorem result_ok (a : α) : (ok a).result = .ok a := rfl

@[simp] theorem result_fail (e : ModelError) : (fail e : Traced α).result = .error e := rfl

/-- A second step is taken only on a value of the first one. -/
theorem result_bind (x : Traced α) (f : α → Traced β) :
    (x >>= f).result = x.result >>= fun a => (f a).result := by
  rw [bind_eq, Traced.bind]
  cases x.result <;> rfl

/-- The stages of a second step follow those of the first. -/
theorem stages_bind (x : Traced α) (f : α → Traced β) :
    (x >>= f).stages = x.stages ++
      match x.result with
      | .ok a => (f a).stages
      | .error _ => [] := by
  rw [bind_eq, Traced.bind]
  cases x.result <;> simp

/-- The warnings of a second step follow those of the first. -/
theorem warnings_bind (x : Traced α) (f : α → Traced β) :
    (x >>= f).warnings = x.warnings ++
      match x.result with
      | .ok a => (f a).warnings
      | .error _ => [] := by
  rw [bind_eq, Traced.bind]
  cases x.result <;> simp

theorem ok_bind (a : α) (f : α → Traced β) : ok a >>= f = f a := by
  rw [bind_eq, Traced.bind]
  rfl

/-- Behind a failure nothing is run any more. -/
theorem fail_bind (e : ModelError) (f : α → Traced β) : fail e >>= f = fail e := rfl

theorem bind_assoc (x : Traced α) (f : α → Traced β) (g : β → Traced γ) :
    x >>= f >>= g = x >>= fun a => f a >>= g := by
  simp only [bind_eq, Traced.bind]
  cases x.result with
  | error e => rfl
  | ok a =>
    dsimp only
    cases (f a).result <;> simp

theorem bind_ok (x : Traced α) : (x >>= fun a => ok a) = x := by
  rw [bind_eq, Traced.bind]
  cases h : x.result <;> ext1 <;> simp [ok, ofExcept, h]

instance : LawfulMonad Traced :=
  LawfulMonad.mk' Traced
    (fun x => bind_ok x)
    (fun a f => ok_bind a f)
    (fun x f g => bind_assoc x f g)

end Traced

end ClassDiagram
