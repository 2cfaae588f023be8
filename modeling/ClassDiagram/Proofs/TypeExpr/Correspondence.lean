import ClassDiagram.Proofs.Outcome.Except
import ClassDiagram.Proofs.TypeExpr.Leaves

/-!
# Types of the same shape

Two types correspond if they differ in their references only, and these are related one by one
(`TypeExpr.Corresponds`, `TypeExpr.Corresponds.forall₂_leaves`).  If each reference is related to
one reference alone, each type corresponds to one type alone, which is the one with its references
replaced (`TypeExpr.corresponds_iff`).
-/

namespace ClassDiagram.TypeExpr

/-- The types have the same shape, and `R` relates the references in the first one to those at the
same places in the second one. -/
inductive Corresponds (R : EntityRef → EntityRef → Prop) : TypeExpr → TypeExpr → Prop
  | empty : Corresponds R empty empty
  | builtin (b : Builtin) : Corresponds R (builtin b) (builtin b)
  | user {r s : EntityRef} (h : R r s) : Corresponds R (user r) (user s)
  | generic {base base' : TypeExpr} {params params' : List TypeExpr}
      (hbase : Corresponds R base base') (hparams : List.Forall₂ (Corresponds R) params params') :
      Corresponds R (generic base params) (generic base' params')
  | function {inputs inputs' : List TypeExpr} {output output' : TypeExpr}
      (hinputs : List.Forall₂ (Corresponds R) inputs inputs')
      (houtput : Corresponds R output output') :
      Corresponds R (function inputs output) (function inputs' output')
  | tuple {items items' : List TypeExpr} (hitems : List.Forall₂ (Corresponds R) items items') :
      Corresponds R (tuple items) (tuple items')

/-! ### The references of types that correspond -/

section References

variable {R : EntityRef → EntityRef → Prop} {t t' : TypeExpr} {ts ts' : List TypeExpr}

theorem forall₂_leavesList
    (h : ∀ t ∈ ts, ∀ t', Corresponds R t t' → List.Forall₂ R t.leaves t'.leaves)
    (hts : List.Forall₂ (Corresponds R) ts ts') :
    List.Forall₂ R (leavesList ts) (leavesList ts') := by
  induction hts with
  | nil => exact .nil
  | @cons t t' ts ts' htt' _ ih =>
    obtain ⟨ht, hts⟩ := List.forall_mem_cons.1 h
    exact List.rel_append (ht t' htt') (ih hts)

/-- The references of types that correspond are related one by one. -/
theorem Corresponds.forall₂_leaves (h : Corresponds R t t') :
    List.Forall₂ R t.leaves t'.leaves := by
  induction t using induction generalizing t' with
  | empty =>
    cases h
    exact .nil
  | builtin b =>
    cases h
    exact .nil
  | user r =>
    cases h with
    | user h => exact .cons h .nil
  | generic base params ihbase ihparams =>
    cases h with
    | generic hbase hparams =>
      exact List.rel_append (ihbase hbase) (forall₂_leavesList (fun p hp _ => ihparams p hp) hparams)
  | function inputs output ihinputs ihoutput =>
    cases h with
    | function hinputs houtput =>
      exact List.rel_append (forall₂_leavesList (fun i hi _ => ihinputs i hi) hinputs)
        (ihoutput houtput)
  | tuple items ih =>
    cases h with
    | tuple hitems => exact forall₂_leavesList (fun i hi _ => ih i hi) hitems

end References

/-! ### Types with their references replaced -/

variable {f : EntityRef → EntityRef}

theorem forall₂_corresponds_iff {ts : List TypeExpr}
    (h : ∀ t ∈ ts, ∀ t', Corresponds (fun r s => s = f r) t t' ↔ t' = t.mapLeaves f)
    (ts' : List TypeExpr) :
    List.Forall₂ (Corresponds fun r s => s = f r) ts ts' ↔ ts' = mapLeavesList f ts := by
  rw [mapLeavesList_eq_map]
  exact forall₂_iff_eq_map h

/-- A type corresponds to the one with its references replaced, and to no other. -/
theorem corresponds_iff {t t' : TypeExpr} :
    Corresponds (fun r s => s = f r) t t' ↔ t' = t.mapLeaves f := by
  induction t using induction generalizing t' with
  | empty =>
    constructor
    · rintro ⟨⟩
      rfl
    · rintro rfl
      exact .empty
  | builtin b =>
    constructor
    · rintro ⟨⟩
      rfl
    · rintro rfl
      exact .builtin b
  | user r =>
    constructor
    · intro h
      cases h with
      | user h => rw [h, mapLeaves_user]
    · rintro rfl
      exact .user rfl
  | generic base params ihbase ihparams =>
    have hlist := forall₂_corresponds_iff fun p hp _ => ihparams p hp
    rw [mapLeaves_generic]
    constructor
    · intro h
      cases h with
      | generic hbase hparams => rw [ihbase.1 hbase, (hlist _).1 hparams]
    · rintro rfl
      exact .generic (ihbase.2 rfl) ((hlist _).2 rfl)
  | function inputs output ihinputs ihoutput =>
    have hlist := forall₂_corresponds_iff fun i hi _ => ihinputs i hi
    rw [mapLeaves_function]
    constructor
    · intro h
      cases h with
      | function hinputs houtput => rw [(hlist _).1 hinputs, ihoutput.1 houtput]
    · rintro rfl
      exact .function ((hlist _).2 rfl) (ihoutput.2 rfl)
  | tuple items ih =>
    have hlist := forall₂_corresponds_iff fun i hi _ => ih i hi
    rw [mapLeaves_tuple]
    constructor
    · intro h
      cases h with
      | tuple hitems => rw [(hlist _).1 hitems]
    · rintro rfl
      exact .tuple ((hlist _).2 rfl)

end ClassDiagram.TypeExpr
