import ClassDiagram.Proofs.TypeExpr.RoundTrip

/-!
# Well-formed types

A type is well formed if it is written down in full and its references have trimmed names
(`WellFormed`).  Every type that is read from a text is well formed, and it is empty only if the
text is blank (`wellFormed_of_parse`, `ne_empty_of_parse`).  Replacing references by others of the
same names keeps a type well formed (`WellFormed.mapLeaves`).
-/

namespace ClassDiagram

open Text

/-- A name that is not empty and has no white space around it. -/
structure EntityRef.IsNamed (r : EntityRef) : Prop where
  name_ne : r.name ≠ ""
  trimmed_eq : trimmed r.name = r.name

namespace TypeExpr

/-- The type is written down in full, and all its references have names. -/
structure WellFormed (t : TypeExpr) : Prop where
  regular : Regular t
  named : ∀ r ∈ t.leaves, r.IsNamed

/-! ### Types that are read -/

theorem Derives.regular {u : List Char} {t : TypeExpr} (h : Derives u t) : Regular t := by
  have hlist : ∀ {ps : List (List Char)} {ts : List TypeExpr}, ps.length = ts.length →
      (∀ p t, (p, t) ∈ ps.zip ts → Regular t) → ∀ t ∈ ts, Regular t := by
    intro ps ts hlen ih t ht
    obtain ⟨p, hp⟩ := exists_mem_zip hlen ht
    exact ih p t hp
  induction h with
  | empty => exact .empty
  | builtin => exact .builtin _
  | user => exact .user _
  | generic hform _ hatom hlen hparams _ ihparams =>
    cases hform with
    | generic _ _ _ _ hps =>
      exact .generic hatom (hps.ne_singleton_empty hlen hparams) (hlist hlen ihparams)
  | function _ hlen _ _ ihinputs ihoutput => exact .function (hlist hlen ihinputs) ihoutput
  | tuple hform hlen hitems ih =>
    cases hform with
    | tuple _ _ _ _ hps => exact .tuple (hps.ne_singleton_empty hlen hitems) (hlist hlen ih)

theorem Derives.isNamed {u : List Char} {t : TypeExpr} (h : Derives u t) (hu : trim u = u) :
    ∀ r ∈ t.leaves, r.IsNamed := by
  intro r hr
  obtain ⟨n, hform, htrim, rfl⟩ := h.exists_name r hr
  have hn := hform.isName (htrim hu)
  constructor
  · intro hempty
    apply hn.ne_nil
    rw [← String.toList_ofList (l := n)]
    exact congrArg String.toList hempty
  · show trimmed (String.ofList n) = String.ofList n
    rw [trimmed, String.toList_ofList, htrim hu]

/-- What is read from a text is well formed. -/
theorem wellFormed_of_parse {text : String} {t : TypeExpr} (h : parse text = .ok t) :
    t.WellFormed := by
  have hd := parse_eq_ok_iff.1 h
  exact ⟨hd.regular, hd.isNamed (trim_trim _)⟩

/-- Only a blank text is read as the empty type. -/
theorem ne_empty_of_parse {text : String} {t : TypeExpr} (hblank : blank text = false)
    (h : parse text = .ok t) : t ≠ .empty := by
  rintro rfl
  have hnil := (parse_eq_ok_iff.1 h).eq_nil_of_empty
  exact isBlank_eq_false_iff.1 hblank hnil

/-! ### Other references -/

section Replace

variable {f : EntityRef → EntityRef}

theorem mapLeaves_eq_empty_iff {t : TypeExpr} : t.mapLeaves f = .empty ↔ t = .empty := by
  cases t with
  | empty => simp
  | builtin | user | generic | function | tuple => simp

theorem mapLeavesList_ne_singleton_empty {ts : List TypeExpr} (h : ts ≠ [.empty]) :
    mapLeavesList f ts ≠ [.empty] := by
  intro hmap
  apply h
  rw [mapLeavesList_eq_map] at hmap
  obtain ⟨t, rfl, ht⟩ := List.map_eq_singleton_iff.1 hmap
  rw [mapLeaves_eq_empty_iff.1 ht]

theorem isAtom_mapLeaves (t : TypeExpr) : (t.mapLeaves f).isAtom = t.isAtom := by
  cases t <;> rfl

/-- The shape of a type does not depend on its references. -/
theorem Regular.mapLeaves {t : TypeExpr} (h : Regular t) : Regular (t.mapLeaves f) := by
  have hlist : ∀ {ts : List TypeExpr}, (∀ t ∈ ts, Regular (t.mapLeaves f)) →
      ∀ t ∈ mapLeavesList f ts, Regular t := by
    intro ts ih t ht
    rw [mapLeavesList_eq_map] at ht
    obtain ⟨s, hs, rfl⟩ := List.mem_map.1 ht
    exact ih s hs
  induction h with
  | empty => exact .empty
  | builtin b => exact .builtin b
  | user r => exact .user (f r)
  | @generic base params hatom hne _ ih =>
    rw [← isAtom_mapLeaves (f := f)] at hatom
    exact .generic hatom (mapLeavesList_ne_singleton_empty hne) (hlist ih)
  | function _ _ ihinputs ihoutput => exact .function (hlist ihinputs) ihoutput
  | tuple hne _ ih => exact .tuple (mapLeavesList_ne_singleton_empty hne) (hlist ih)

theorem WellFormed.mapLeaves {t : TypeExpr} (h : t.WellFormed) (hf : ∀ r, (f r).name = r.name) :
    (t.mapLeaves f).WellFormed := by
  refine ⟨h.regular.mapLeaves, fun r hr => ?_⟩
  rw [leaves_mapLeaves] at hr
  obtain ⟨s, hs, rfl⟩ := List.mem_map.1 hr
  obtain ⟨hne, htrimmed⟩ := h.named s hs
  constructor
  · rwa [hf]
  · rwa [hf]

end Replace

/-! ### References alone -/

theorem wellFormed_user {r : EntityRef} (h : r.IsNamed) : WellFormed (.user r) := by
  refine ⟨.user r, ?_⟩
  rw [leaves, List.forall_mem_singleton]
  exact h

end TypeExpr

end ClassDiagram
