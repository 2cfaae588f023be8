import ClassDiagram.Model.Basic
import ClassDiagram.Outcome.Error

/-!
# Ancestors

The ancestors of an entity are the superclasses on its chain of superclasses and the mixins of every
entity on that chain, the entity itself included.  Mixins of mixins are not followed.  A chain ends
at a superclass that the model does not have; it is an error if it comes back to a reference that is
on it already.

The walk along the chain ends because each step takes a reference of the model that was not on the
chain before (`unvisited_append_lt`).
-/

namespace ClassDiagram

namespace Entity

/-- The reference to the superclass. -/
def superclassRef? (e : Entity) : Option EntityRef :=
  e.superclass.bind TypeExpr.reference?

/-- The references to the mixins, in order. -/
def mixinRefs (e : Entity) : List EntityRef :=
  e.mixins.filterMap TypeExpr.reference?

end Entity

namespace Model

/-- The first entity with a reference that can be inherited from. -/
def resolveAncestor (m : Model) (r : EntityRef) : Option Entity :=
  m.entities.find? fun e => e.reference = r && e.kind.isInheritable

/-- The mixins of an entity that the model has. -/
def mixinsOf (m : Model) (e : Entity) : List Entity :=
  e.mixinRefs.filterMap m.resolveAncestor

/-- The number of entities whose references are not on a chain. -/
def unvisited (m : Model) (chain : List EntityRef) : Nat :=
  m.entities.countP fun e => e.reference ∉ chain

theorem mem_of_resolveAncestor {m : Model} {r : EntityRef} {e : Entity}
    (h : m.resolveAncestor r = some e) : e ∈ m.entities :=
  List.mem_of_find?_eq_some h

theorem reference_of_resolveAncestor {m : Model} {r : EntityRef} {e : Entity}
    (h : m.resolveAncestor r = some e) : e.reference = r := by
  have := List.find?_some h
  simp only [Bool.and_eq_true, decide_eq_true_eq] at this
  exact this.1

theorem isInheritable_of_resolveAncestor {m : Model} {r : EntityRef} {e : Entity}
    (h : m.resolveAncestor r = some e) : e.kind.isInheritable = true := by
  have := List.find?_some h
  simp only [Bool.and_eq_true] at this
  exact this.2

/-- A reference of the model that was not on the chain leaves fewer unvisited entities. -/
theorem unvisited_append_lt {m : Model} {chain : List EntityRef} {r : EntityRef} {e : Entity}
    (hr : r ∉ chain) (h : m.resolveAncestor r = some e) :
    m.unvisited (chain ++ [r]) < m.unvisited chain := by
  obtain ⟨before, after, he⟩ := List.append_of_mem (mem_of_resolveAncestor h)
  have hle (l : List Entity) :
      l.countP (fun e => e.reference ∉ chain ++ [r]) ≤ l.countP fun e => e.reference ∉ chain := by
    refine List.countP_mono_left fun x _ hx => ?_
    simp_all
  have h1 := hle before
  have h2 := hle after
  have hre := reference_of_resolveAncestor h
  unfold unvisited
  rw [he, List.countP_append, List.countP_append, List.countP_cons, List.countP_cons,
    if_neg (by simp [hre]), if_pos (by simp [hre, hr])]
  omega

/-- The ancestors of an entity that stands at the end of a chain of references: its mixins, and
then its superclass with the ancestors of that. -/
def ancestorsFrom (m : Model) (chain : List EntityRef) (e : Entity) :
    Except ModelError (List Entity) :=
  match e.superclassRef? with
  | none => .ok (m.mixinsOf e)
  | some r =>
    if _hr : r ∈ chain then .error (.cyclicInheritance (chain ++ [r]))
    else
      match _hp : m.resolveAncestor r with
      | none => .ok (m.mixinsOf e)
      | some parent =>
        (m.ancestorsFrom (chain ++ [r]) parent).map fun rest => m.mixinsOf e ++ parent :: rest
termination_by m.unvisited chain
decreasing_by exact unvisited_append_lt _hr _hp

/-- The ancestors of an entity, the nearest first. -/
def ancestors (m : Model) (e : Entity) : Except ModelError (List Entity) :=
  m.ancestorsFrom [e.reference] e

end Model

end ClassDiagram
