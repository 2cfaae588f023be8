import ClassDiagram.Proofs.TypeExpr.Correspondence

/-!
# Visiting the references of a type

A type can be rebuilt by an action on its references.  The actions run as they would along the list
of the references, and the references of the new type are what they return
(`map_leaves_mapLeavesM`); nothing else about the type changes
(`sameShape_run_mapLeavesM`).  Two types of one shape with the same references are equal
(`SameShape.eq_of_leaves_eq`), so that this says all about the new type
(`mapLeavesM_exact`).
-/

namespace ClassDiagram.TypeExpr

/-! ### The order of the visits -/

section Lawful

variable {m : Type → Type} [Monad m] [LawfulMonad m] {f : EntityRef → m EntityRef}

theorem map_leavesList_mapLeavesListM {ts : List TypeExpr}
    (h : ∀ t ∈ ts, leaves <$> mapLeavesM f t = t.leaves.mapM f) :
    leavesList <$> mapLeavesListM f ts = (leavesList ts).mapM f := by
  induction ts with
  | nil => simp [mapLeavesListM, leavesList]
  | cons t ts ih =>
    obtain ⟨ht, hts⟩ := List.forall_mem_cons.1 h
    rw [leavesList, List.mapM_append, ← ht, ← ih hts]
    simp [mapLeavesListM, leavesList]

/-- Rebuilding a type runs the action once on each of its references, in their order, and puts what
comes back in their places. -/
theorem map_leaves_mapLeavesM (t : TypeExpr) : leaves <$> mapLeavesM f t = t.leaves.mapM f := by
  induction t using induction with
  | empty => simp [mapLeavesM, leaves]
  | builtin b => simp [mapLeavesM, leaves]
  | user r => simp [mapLeavesM, leaves]
  | generic base params ihbase ihparams =>
    -- The base is visited before the parameters.
    rw [leaves, List.mapM_append, ← ihbase, ← map_leavesList_mapLeavesListM ihparams]
    simp [mapLeavesM, leaves]
  | function inputs output ihinputs ihoutput =>
    -- The output is visited after the inputs.
    rw [leaves, List.mapM_append, ← ihoutput, ← map_leavesList_mapLeavesListM ihinputs]
    simp [mapLeavesM, leaves]
  | tuple items ih =>
    rw [leaves, ← map_leavesList_mapLeavesListM ih]
    simp [mapLeavesM, leaves]

end Lawful

/-! ### The shape -/

/-- The types differ in nothing but their references. -/
def SameShape : TypeExpr → TypeExpr → Prop := Corresponds fun _ _ => True

theorem SameShape.length_leaves {t t' : TypeExpr} (h : t.SameShape t') :
    t.leaves.length = t'.leaves.length :=
  h.forall₂_leaves.length_eq

section Refilled

variable {t u v : TypeExpr} {ts us vs : List TypeExpr}

theorem eq_of_leavesList_eq
    (h : ∀ t ∈ ts, ∀ u v, SameShape t u → SameShape t v → u.leaves = v.leaves → u = v)
    (hu : List.Forall₂ SameShape ts us) (hv : List.Forall₂ SameShape ts vs)
    (hleaves : leavesList us = leavesList vs) : us = vs := by
  induction hu generalizing vs with
  | nil => exact (List.forall₂_nil_left_iff.1 hv).symm
  | @cons t u ts us htu _ ih =>
    obtain ⟨v, vs, htv, htvs, rfl⟩ := List.forall₂_cons_left_iff.1 hv
    obtain ⟨ht, hts⟩ := List.forall_mem_cons.1 h
    -- The first types have equally many references, and so the lists split at the same place.
    have hlength : u.leaves.length = v.leaves.length :=
      htu.length_leaves.symm.trans htv.length_leaves
    rw [leavesList, leavesList] at hleaves
    obtain ⟨hhead, htail⟩ := List.append_inj hleaves hlength
    rw [ht u v htu htv hhead, ih hts htvs htail]

/-- A type is determined by its shape and its references. -/
theorem SameShape.eq_of_leaves_eq (hu : t.SameShape u) (hv : t.SameShape v)
    (hleaves : u.leaves = v.leaves) : u = v := by
  induction t using induction generalizing u v with
  | empty =>
    cases hu
    cases hv
    rfl
  | builtin b =>
    cases hu
    cases hv
    rfl
  | user r =>
    cases hu
    cases hv
    rw [List.singleton_inj.1 hleaves]
  | generic base params ihbase ihparams =>
    cases hu with
    | @generic _ ubase _ uparams hubase huparams =>
      cases hv with
      | @generic _ vbase _ vparams hvbase hvparams =>
        have hlength : ubase.leaves.length = vbase.leaves.length :=
          (SameShape.length_leaves hubase).symm.trans (SameShape.length_leaves hvbase)
        obtain ⟨hbase, hparams⟩ := List.append_inj hleaves hlength
        rw [ihbase hubase hvbase hbase,
          eq_of_leavesList_eq (fun p hp _ _ => ihparams p hp) huparams hvparams hparams]
  | function inputs output ihinputs ihoutput =>
    cases hu with
    | @function _ uinputs _ uoutput huinputs huoutput =>
      cases hv with
      | @function _ vinputs _ voutput hvinputs hvoutput =>
        have hlength : uoutput.leaves.length = voutput.leaves.length :=
          (SameShape.length_leaves huoutput).symm.trans (SameShape.length_leaves hvoutput)
        obtain ⟨hinputs, houtput⟩ := List.append_inj' hleaves hlength
        rw [ihoutput huoutput hvoutput houtput,
          eq_of_leavesList_eq (fun i hi _ _ => ihinputs i hi) huinputs hvinputs hinputs]
  | tuple items ih =>
    cases hu with
    | tuple huitems =>
      cases hv with
      | tuple hvitems =>
        rw [eq_of_leavesList_eq (fun i hi _ _ => ih i hi) huitems hvitems hleaves]

end Refilled

/-! ### Rebuilding with a state -/

section State

variable {σ : Type} {f : EntityRef → StateM σ EntityRef}

theorem forall₂_sameShape_run_mapLeavesListM {ts : List TypeExpr}
    (h : ∀ t ∈ ts, ∀ s, t.SameShape ((mapLeavesM f t).run s).1) (s : σ) :
    List.Forall₂ SameShape ts ((mapLeavesListM f ts).run s).1 := by
  induction ts generalizing s with
  | nil => exact .nil
  | cons t ts ih =>
    obtain ⟨ht, hts⟩ := List.forall_mem_cons.1 h
    exact .cons (ht s) (ih hts _)

/-- Nothing but the references of a type is replaced. -/
theorem sameShape_run_mapLeavesM (t : TypeExpr) (s : σ) :
    t.SameShape ((mapLeavesM f t).run s).1 := by
  induction t using induction generalizing s with
  | empty => exact .empty
  | builtin b => exact .builtin b
  | user r => exact .user trivial
  | generic base params ihbase ihparams =>
    exact .generic (ihbase s) (forall₂_sameShape_run_mapLeavesListM ihparams _)
  | function inputs output ihinputs ihoutput =>
    exact .function (forall₂_sameShape_run_mapLeavesListM ihinputs s) (ihoutput _)
  | tuple items ih => exact .tuple (forall₂_sameShape_run_mapLeavesListM ih s)

theorem run_mapM_leaves (t : TypeExpr) (s : σ) :
    (t.leaves.mapM f).run s =
      (((mapLeavesM f t).run s).1.leaves, ((mapLeavesM f t).run s).2) := by
  rw [← map_leaves_mapLeavesM]
  rfl

end State

/-- Rebuilding a type with a stateful function calls it once on each reference, in the order in
which the references are listed, each time in the state that the call before has left; the new
references are what it returns, and nothing else is changed.  So a function that returns what it is
given changes nothing, and two functions one after the other do the same as both at once. -/
theorem mapLeavesM_exact (t : TypeExpr) :
    (∀ (σ : Type) (f : EntityRef → StateM σ EntityRef) (s s' : σ) (t' : TypeExpr),
        (t.mapLeavesM f).run s = (t', s') ↔
          t.SameShape t' ∧ (t.leaves.mapM f).run s = (t'.leaves, s')) ∧
      t.mapLeaves (fun r => r) = t ∧
      ∀ f g, (t.mapLeaves f).mapLeaves g = t.mapLeaves fun r => g (f r) := by
  refine ⟨fun σ f s s' t' => ?_, mapLeaves_id t, fun f g => mapLeaves_mapLeaves t⟩
  have hshape : t.SameShape ((t.mapLeavesM f).run s).1 := sameShape_run_mapLeavesM t s
  rw [run_mapM_leaves, Prod.mk.injEq]
  constructor
  · intro h
    rw [h] at hshape ⊢
    exact ⟨hshape, rfl, rfl⟩
  · rintro ⟨hshape', hleaves, hstate⟩
    exact Prod.ext (hshape.eq_of_leaves_eq hshape' hleaves) hstate

/-- The base of a generic type comes before its parameters, and the output of a function after its
inputs. -/
example :
    let count (r : EntityRef) : StateM Nat EntityRef := fun n => (⟨r.name, n.repr⟩, n + 1)
    let plain (name : String) : TypeExpr := .user (.unqualified name)
    ((TypeExpr.function [.generic (plain "A") [plain "B", .builtin .int], plain "C"]
        (.tuple [plain "D"])).mapLeavesM count).run 7 =
      (.function [.generic (.user ⟨"A", "7"⟩) [.user ⟨"B", "8"⟩, .builtin .int], .user ⟨"C", "9"⟩]
        (.tuple [.user ⟨"D", "10"⟩]), 11) := by
  rfl

end ClassDiagram.TypeExpr
