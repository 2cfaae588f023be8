import ClassDiagram.Proofs.Model.Overrides
import ClassDiagram.Proofs.Model.Walk
import Mathlib.Logic.Relation

/-!
# Cycles of entities

Ancestors are sought by reference, and several entities may share one: a class, for instance, and
the object beside it.  So the search may come back to a reference without coming back to an entity
(`Model.refuses_clocks`).  It fails for some entity of a model just when superclasses make a cycle
of entities, or when they lead from an entity that is not the one found for its own reference to a
superclass of that reference (`Model.exists_analyzeOverrides_iff`).

Both come down to an entity with an entity behind it whose superclass has the reference of the first
one (`Model.NamesItself`).  A search that succeeds has seen all entities behind its first one, and
so found no such superclass (`Model.not_namesItself_of_ancestors`); one that fails has come back to
the reference of an entity on the way, and that one is such an entity
(`Model.exists_namesItself_of_ancestors`).
-/

namespace ClassDiagram

open Relation

namespace Model

variable {m : Model} {i j : Nat} {e : Entity}

/-! ### Steps between positions -/

/-- The position of the first entity with a reference that can be inherited from. -/
def ancestorAt? (m : Model) (r : EntityRef) : Option Nat :=
  m.entities.findIdx? fun e => e.reference = r && e.kind.isInheritable

/-- The superclass of the entity at position `i` is found at position `j`. -/
def LeadsTo (m : Model) (i j : Nat) : Prop :=
  ∃ e r, m.entities[i]? = some e ∧ e.superclassRef? = some r ∧ m.ancestorAt? r = some j

theorem resolveAncestor_eq_bind (m : Model) (r : EntityRef) :
    m.resolveAncestor r = (m.ancestorAt? r).bind fun i => m.entities[i]? :=
  List.find?_eq_bind_findIdx?_getElem?

theorem exists_ancestorAt?_of_resolveAncestor {r : EntityRef} (h : m.resolveAncestor r = some e) :
    ∃ j, m.ancestorAt? r = some j ∧ m.entities[j]? = some e := by
  rw [resolveAncestor_eq_bind] at h
  exact Option.bind_eq_some_iff.1 h

theorem exists_resolveAncestor_of_ancestorAt? {r : EntityRef} (h : m.ancestorAt? r = some j) :
    ∃ e, m.entities[j]? = some e ∧ m.resolveAncestor r = some e := by
  obtain ⟨hj, -⟩ := List.findIdx?_eq_some_iff_getElem.1 h
  have he := List.getElem?_eq_getElem hj
  exact ⟨m.entities[j], he, by rw [resolveAncestor_eq_bind, h, Option.bind_some, he]⟩

/-- Superclasses lead from the entity at position `i` back to an entity that has been visited. -/
def ComesBack (m : Model) (i : Nat) : Prop :=
  ∃ j, ReflTransGen m.LeadsTo i j ∧ TransGen m.LeadsTo j j

/-- Superclasses lead from the entity at position `i` to one whose superclass has the reference of
the entity at `i`. -/
def NamesItself (m : Model) (i : Nat) : Prop :=
  ∃ e j a, m.entities[i]? = some e ∧ ReflTransGen m.LeadsTo i j ∧ m.entities[j]? = some a ∧
    a.superclassRef? = some e.reference

theorem namesItself_of_transGen (h : TransGen m.LeadsTo j j) : m.NamesItself j := by
  -- The last step of the cycle finds the entity that the cycle starts from.
  obtain ⟨k, hjk, a, r, ha, hr, hj⟩ := TransGen.tail'_iff.1 h
  obtain ⟨e, he, hresolve⟩ := exists_resolveAncestor_of_ancestorAt? hj
  refine ⟨e, k, a, he, hjk, ha, ?_⟩
  rw [reference_of_resolveAncestor hresolve, hr]

theorem transGen_of_namesItself (h : m.NamesItself i) (hi : m.entities[i]? = some e)
    (hat : m.ancestorAt? e.reference = some i) : TransGen m.LeadsTo i i := by
  obtain ⟨e', j, a, he', hij, ha, hr⟩ := h
  obtain rfl := Option.some.inj (hi.symm.trans he')
  exact TransGen.tail' hij ⟨a, _, ha, hr, hat⟩

/-! ### Searches that succeed -/

namespace Walk

variable {seen : List EntityRef} {rest : List Entity}

section Ends

variable (h : m.Walk seen e rest)
  (hend : ∀ r ∈ seen ++ rest.map Entity.reference, (rest.getLastD e).superclassRef? ≠ some r)

include h hend

/-- A walk that does not come back has been along all superclasses. -/
theorem mem_of_resolveAncestor {a b : Entity} (ha : a ∈ e :: rest) {r : EntityRef}
    (hr : a.superclassRef? = some r) (hb : m.resolveAncestor r = some b) : b ∈ e :: rest := by
  induction h generalizing a with
  | stop hstop =>
    obtain rfl := List.mem_singleton.1 ha
    rcases hstop r hr with hmem | hnone
    · exact absurd hr (hend r (List.mem_append_left _ hmem))
    · simp [hnone] at hb
  | step hr' _ hp _ ih =>
    rcases List.mem_cons.1 ha with rfl | ha
    · obtain rfl := Option.some.inj (hr'.symm.trans hr)
      obtain rfl := Option.some.inj (hp.symm.trans hb)
      exact List.mem_cons_of_mem _ List.mem_cons_self
    · rw [met_eq hp, List.getLastD_cons] at hend
      exact List.mem_cons_of_mem _ (ih hend ha hr)

/-- On a walk that does not come back, no superclass has a reference that had been met before. -/
theorem superclassRef?_ne {a : Entity} (ha : a ∈ e :: rest) {r : EntityRef} (hr : r ∈ seen) :
    a.superclassRef? ≠ some r := by
  induction h generalizing a with
  | stop _ =>
    obtain rfl := List.mem_singleton.1 ha
    exact hend r (List.mem_append_left _ hr)
  | step hr' hnew hp _ ih =>
    rcases List.mem_cons.1 ha with rfl | ha
    · intro h
      obtain rfl := Option.some.inj (hr'.symm.trans h)
      exact hnew hr
    · rw [met_eq hp, List.getLastD_cons] at hend
      exact ih hend ha (List.mem_append_left _ hr)

/-- All that superclasses lead to is on a walk that does not come back. -/
theorem exists_mem_of_reflTransGen (hi : m.entities[i]? = some e)
    (hij : ReflTransGen m.LeadsTo i j) : ∃ a ∈ e :: rest, m.entities[j]? = some a := by
  induction hij with
  | refl => exact ⟨e, List.mem_cons_self, hi⟩
  | tail _ hstep ih =>
    obtain ⟨a, ha, hat⟩ := ih
    obtain ⟨a', r, ha', hr, hj⟩ := hstep
    obtain rfl := Option.some.inj (hat.symm.trans ha')
    obtain ⟨b, hb, hresolve⟩ := exists_resolveAncestor_of_ancestorAt? hj
    exact ⟨b, h.mem_of_resolveAncestor hend ha hr hresolve, hb⟩

end Ends

/-! ### Searches that fail -/

theorem exists_reflTransGen_last (h : m.Walk seen e rest) (hi : m.entities[i]? = some e) :
    ∃ k, ReflTransGen m.LeadsTo i k ∧ m.entities[k]? = some (rest.getLastD e) := by
  induction h generalizing i with
  | stop _ => exact ⟨i, .refl, hi⟩
  | step hr _ hp _ ih =>
    obtain ⟨j, hat, hj⟩ := exists_ancestorAt?_of_resolveAncestor hp
    obtain ⟨k, hjk, hk⟩ := ih hj
    exact ⟨k, .head ⟨_, _, hi, hr, hat⟩ hjk, by rwa [List.getLastD_cons]⟩

/-- Superclasses lead from every entity on a walk to the last one. -/
theorem exists_reflTransGen_of_mem (h : m.Walk seen e rest) (hi : m.entities[i]? = some e)
    {b : Entity} (hb : b ∈ e :: rest) : ∃ j k, m.entities[j]? = some b ∧
      ReflTransGen m.LeadsTo j k ∧ m.entities[k]? = some (rest.getLastD e) := by
  induction h generalizing i with
  | stop _ =>
    obtain rfl := List.mem_singleton.1 hb
    exact ⟨i, i, hi, .refl, hi⟩
  | step hr hnew hp hrest ih =>
    rcases List.mem_cons.1 hb with rfl | hb
    · obtain ⟨k, hik, hk⟩ := (Walk.step hr hnew hp hrest).exists_reflTransGen_last hi
      exact ⟨i, k, hi, hik, hk⟩
    · obtain ⟨j, -, hj⟩ := exists_ancestorAt?_of_resolveAncestor hp
      rw [List.getLastD_cons]
      exact ih hj hb

end Walk

theorem not_namesItself_of_ancestors (hi : m.entities[i]? = some e) {as : List Entity}
    (has : m.ancestors e = .ok as) : ¬ m.NamesItself i := by
  obtain ⟨rest, h⟩ := m.exists_walk [e.reference] e
  obtain ⟨hend, -⟩ := h.ancestorsFrom_eq_ok_iff.1 has
  rintro ⟨e', j, a, he', hij, ha, hr⟩
  obtain rfl := Option.some.inj (hi.symm.trans he')
  obtain ⟨b, hb, hbj⟩ := h.exists_mem_of_reflTransGen hend hi hij
  obtain rfl := Option.some.inj (ha.symm.trans hbj)
  exact h.superclassRef?_ne hend hb List.mem_cons_self hr

theorem exists_namesItself_of_ancestors (hi : m.entities[i]? = some e) {err : ModelError}
    (herr : m.ancestors e = .error err) : ∃ j, m.NamesItself j := by
  obtain ⟨rest, h⟩ := m.exists_walk [e.reference] e
  obtain ⟨r, hmem, hr, -⟩ := h.ancestorsFrom_eq_error_iff.1 herr
  -- The reference that the walk comes back to is that of an entity on it.
  have hmem : r ∈ (e :: rest).map Entity.reference := hmem
  obtain ⟨b, hb, rfl⟩ := List.mem_map.1 hmem
  obtain ⟨j, k, hj, hjk, hk⟩ := h.exists_reflTransGen_of_mem hi hb
  exact ⟨j, b, k, _, hj, hjk, hk, hr⟩

/-! ### Overriding members -/

theorem exists_markOverrides_iff (m : Model) :
    (∃ n, m.markOverrides = .ok n) ↔ ∀ i, ¬ m.NamesItself i := by
  simp only [markOverrides_eq_ok_iff]
  constructor
  · rintro ⟨_, hall, -⟩ i hi
    have ⟨e, _, _, he, _⟩ := hi
    obtain ⟨as, has⟩ := hall e (List.mem_of_getElem? he)
    exact not_namesItself_of_ancestors he has hi
  · intro hnone
    refine ⟨_, fun e he => ?_, rfl⟩
    obtain ⟨i, hi⟩ := List.mem_iff_getElem?.1 he
    cases has : m.ancestors e with
    | ok as => exact ⟨as, rfl⟩
    | error err =>
      obtain ⟨j, hj⟩ := exists_namesItself_of_ancestors hi has
      exact absurd hj (hnone j)

/-- Overriding members are found just when superclasses lead from no entity back to one that has
been visited, and from no entity that another one, or none, is found for by its reference to a
superclass of that reference. -/
theorem exists_analyzeOverrides_iff (m : Model) :
    (∃ n, m.analyzeOverrides.result = .ok n) ↔
      (∀ i < m.entities.length, ¬ m.ComesBack i) ∧
        ∀ i e, m.entities[i]? = some e → m.ancestorAt? e.reference ≠ some i →
          ∀ j a, ReflTransGen m.LeadsTo i j → m.entities[j]? = some a →
            a.superclassRef? ≠ some e.reference := by
  simp only [result_analyzeOverrides]
  rw [exists_markOverrides_iff]
  constructor
  · intro hnone
    constructor
    · rintro i - ⟨j, -, hj⟩
      exact hnone j (namesItself_of_transGen hj)
    · intro i e he _ j a hij ha hr
      exact hnone i ⟨e, j, a, he, hij, ha, hr⟩
  · rintro ⟨hacyclic, htwins⟩ i hi
    obtain ⟨e, j, a, he, hij, ha, hr⟩ := hi
    by_cases hat : m.ancestorAt? e.reference = some i
    · -- The entity is found for its reference, which closes a cycle.
      have hcycle := transGen_of_namesItself ⟨e, j, a, he, hij, ha, hr⟩ he hat
      obtain ⟨hlt, -⟩ := List.getElem?_eq_some_iff.1 he
      exact hacyclic i hlt ⟨i, .refl, hcycle⟩
    · exact htwins i e he hat j a hij ha hr

/-! ### A class and the object beside it -/

/-- A class and an object of one name, where the object extends the class. -/
def clocks : Model :=
  let clock (id : String) : Entity := {
    id := id
    reference := .unqualified "Clock"
    geometry := ⟨0, 0, 0, 0⟩
    kind := .cls
    isMutable := false
    isImmutable := false
    superclass := none
    mixins := []
    attributes := []
    operations := []
    hasCompanion := false }
  ofParts []
    [{ clock "O0" with kind := .object, superclass := some (.user (.unqualified "Clock")) },
      clock "O1"] .empty

/-- There is no cycle among the two clocks, but the search refuses them. -/
theorem refuses_clocks :
    (∀ i < clocks.entities.length, ¬ clocks.ComesBack i) ∧
      ∀ n, clocks.analyzeOverrides.result ≠ .ok n := by
  constructor
  · -- Steps lead from the first position to the second one only.
    have hlt : ∀ i j, clocks.LeadsTo i j → i < j := by
      rintro i j ⟨e, r, he, hr, hj⟩
      match i with
      | 0 =>
        cases he
        cases hr
        have hat : clocks.ancestorAt? (.unqualified "Clock") = some 1 := by decide +kernel
        obtain rfl := Option.some.inj (hat.symm.trans hj)
        exact Nat.zero_lt_one
      | 1 =>
        cases he
        cases hr
      | i + 2 => cases he
    rintro i - ⟨j, -, hj⟩
    have hjj : j < j := transGen_minimal hlt j j hj
    exact Nat.lt_irrefl j hjj
  · intro n hn
    have hrefused : clocks.analyzeOverrides.result.toOption.isSome = false := by decide +kernel
    rw [hn] at hrefused
    cases hrefused

end Model

end ClassDiagram
