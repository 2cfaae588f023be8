import ClassDiagram.TypeExpr.Basic
import Mathlib.Data.List.Basic

/-!
# Replacing the references of a type

Types are treated by induction on their parts, all parts in a list at once (`TypeExpr.induction`).
The references of a type with its references replaced are the replaced references, in the same
order (`leaves_mapLeaves`), and what is done with other references does not matter
(`mapLeaves_congr`).
-/

namespace ClassDiagram.TypeExpr

/-! ### Induction -/

section Induction

variable {P : TypeExpr → Prop} (empty : P .empty) (builtin : ∀ b, P (.builtin b))
  (user : ∀ r, P (.user r))
  (generic : ∀ base params, P base → (∀ p ∈ params, P p) → P (.generic base params))
  (function : ∀ inputs output, (∀ i ∈ inputs, P i) → P output → P (.function inputs output))
  (tuple : ∀ items, (∀ i ∈ items, P i) → P (.tuple items))

include empty builtin user generic function tuple

/-- What holds of a type whenever it holds of its parts holds of every type. -/
@[elab_as_elim] theorem induction (t : TypeExpr) : P t :=
  TypeExpr.rec empty builtin user generic function tuple
    (fun _ h => absurd h List.not_mem_nil)
    (fun _ _ ht hts _ h => (List.mem_cons.1 h).elim (fun e => e ▸ ht) (hts _)) t

end Induction

/-! ### References -/

theorem leavesList_eq_flatMap (ts : List TypeExpr) : leavesList ts = ts.flatMap leaves := by
  induction ts with
  | nil => rfl
  | cons t ts ih => rw [leavesList, ih, List.flatMap_cons]

theorem mapLeavesList_eq_map (f : EntityRef → EntityRef) (ts : List TypeExpr) :
    mapLeavesList f ts = ts.map (mapLeaves f) := by
  induction ts with
  | nil => rfl
  | cons t ts ih => rw [mapLeavesList_cons, ih, List.map_cons]

theorem leaves_subset_leavesList {t : TypeExpr} {ts : List TypeExpr} (h : t ∈ ts) :
    leaves t ⊆ leavesList ts := by
  intro r hr
  rw [leavesList_eq_flatMap]
  exact List.mem_flatMap.2 ⟨t, h, hr⟩

section Replace

variable {f g : EntityRef → EntityRef}

theorem leaves_mapLeaves (t : TypeExpr) : (t.mapLeaves f).leaves = t.leaves.map f := by
  have hlist : ∀ ts : List TypeExpr, (∀ t ∈ ts, (t.mapLeaves f).leaves = t.leaves.map f) →
      leavesList (mapLeavesList f ts) = (leavesList ts).map f := by
    intro ts h
    rw [leavesList_eq_flatMap, leavesList_eq_flatMap, mapLeavesList_eq_map, List.flatMap_map,
      List.map_flatMap]
    exact List.flatMap_congr h
  induction t using induction with
  | empty | builtin | user => rfl
  | generic base params ihbase ihparams =>
    rw [mapLeaves_generic, leaves, leaves, ihbase, hlist params ihparams, List.map_append]
  | function inputs output ihinputs ihoutput =>
    rw [mapLeaves_function, leaves, leaves, ihoutput, hlist inputs ihinputs, List.map_append]
  | tuple items ih => rw [mapLeaves_tuple, leaves, leaves, hlist items ih]

/-- Replacing references twice is replacing them once by what becomes of them in the end. -/
theorem mapLeaves_mapLeaves (t : TypeExpr) :
    (t.mapLeaves f).mapLeaves g = t.mapLeaves fun r => g (f r) := by
  have hlist : ∀ ts : List TypeExpr,
      (∀ t ∈ ts, (t.mapLeaves f).mapLeaves g = t.mapLeaves fun r => g (f r)) →
      mapLeavesList g (mapLeavesList f ts) = mapLeavesList (fun r => g (f r)) ts := by
    intro ts h
    rw [mapLeavesList_eq_map, mapLeavesList_eq_map, mapLeavesList_eq_map, List.map_map]
    exact List.map_congr_left h
  induction t using induction with
  | empty | builtin | user => rfl
  | generic base params ihbase ihparams =>
    simp only [mapLeaves_generic, ihbase, hlist params ihparams]
  | function inputs output ihinputs ihoutput =>
    simp only [mapLeaves_function, hlist inputs ihinputs, ihoutput]
  | tuple items ih => simp only [mapLeaves_tuple, hlist items ih]

/-- Only what a map does to the leaves of a type counts. -/
theorem mapLeaves_congr {t : TypeExpr} (h : ∀ r ∈ t.leaves, f r = g r) :
    t.mapLeaves f = t.mapLeaves g := by
  have hlist : ∀ ts : List TypeExpr, (∀ r ∈ leavesList ts, f r = g r) →
      (∀ t ∈ ts, (∀ r ∈ t.leaves, f r = g r) → t.mapLeaves f = t.mapLeaves g) →
      mapLeavesList f ts = mapLeavesList g ts := by
    intro ts hts ih
    rw [mapLeavesList_eq_map, mapLeavesList_eq_map]
    exact List.map_congr_left fun t ht =>
      ih t ht fun r hr => hts r (leaves_subset_leavesList ht hr)
  induction t using induction with
  | empty | builtin => rfl
  | user r => rw [mapLeaves_user, mapLeaves_user, h r List.mem_cons_self]
  | generic base params ihbase ihparams =>
    rw [leaves] at h
    rw [mapLeaves_generic, mapLeaves_generic, ihbase fun r hr => h r (List.mem_append_left _ hr),
      hlist params (fun r hr => h r (List.mem_append_right _ hr)) ihparams]
  | function inputs output ihinputs ihoutput =>
    rw [leaves] at h
    rw [mapLeaves_function, mapLeaves_function,
      ihoutput fun r hr => h r (List.mem_append_right _ hr),
      hlist inputs (fun r hr => h r (List.mem_append_left _ hr)) ihinputs]
  | tuple items ih => rw [mapLeaves_tuple, mapLeaves_tuple, hlist items h ih]

@[simp] theorem mapLeaves_id (t : TypeExpr) : t.mapLeaves (fun r => r) = t := by
  have hlist : ∀ ts : List TypeExpr, (∀ t ∈ ts, t.mapLeaves (fun r => r) = t) →
      mapLeavesList (fun r => r) ts = ts := by
    intro ts h
    rw [mapLeavesList_eq_map, List.map_congr_left h, List.map_id']
  induction t using induction with
  | empty | builtin | user => rfl
  | generic base params ihbase ihparams => rw [mapLeaves_generic, ihbase, hlist params ihparams]
  | function inputs output ihinputs ihoutput =>
    rw [mapLeaves_function, hlist inputs ihinputs, ihoutput]
  | tuple items ih => rw [mapLeaves_tuple, hlist items ih]

theorem mapLeaves_eq_self {t : TypeExpr} (h : ∀ r ∈ t.leaves, f r = r) : t.mapLeaves f = t :=
  (mapLeaves_congr h).trans (mapLeaves_id t)

end Replace

end ClassDiagram.TypeExpr
