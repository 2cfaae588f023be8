import ClassDiagram.Text.Cut
import Mathlib.Data.List.Basic

/-!
# Where texts are cut

`cutAt` cuts a text at the first occurrence of a word (`cutAt_eq_some_iff`), and does not cut it
just when the word does not occur in it (`cutAt_eq_none_iff`).  A single element occurs first where
it does not stand before (`cutAt_singleton_eq_some_iff`); one that is written twice, where in
addition no third one stands right before the two (`firstCut_pair`).  `cutAtLast` cuts where an
element occurs last, that is where it does not stand behind (`cutAtLast_eq_some_iff`).
-/

namespace ClassDiagram.Text

variable {α : Type} {w s before after : List α}

/-- The word `w` stands between `before` and `after` in the text, and nowhere further left. -/
structure FirstCut (w s before after : List α) : Prop where
  eq_append : s = before ++ w ++ after
  first : ∀ before' after', s = before' ++ w ++ after' → before.length ≤ before'.length

/-- A text is cut at one place only. -/
theorem FirstCut.unique {before' after' : List α} (h : FirstCut w s before after)
    (h' : FirstCut w s before' after') : before = before' ∧ after = after' := by
  have hlength : before.length = before'.length :=
    Nat.le_antisymm (h.first _ _ h'.eq_append) (h'.first _ _ h.eq_append)
  have happend := h.eq_append.symm.trans h'.eq_append
  rw [List.append_assoc, List.append_assoc] at happend
  obtain ⟨hbefore, hrest⟩ := List.append_inj happend hlength
  exact ⟨hbefore, List.append_cancel_left hrest⟩

section

variable [BEq α] [LawfulBEq α]

/-- Around a cut stand the two parts and the word between them. -/
theorem cutAt_eq_append (h : cutAt w s = some (before, after)) : s = before ++ w ++ after := by
  induction s generalizing before with
  | nil =>
    simp only [cutAt, Option.map_eq_some_iff, Prod.mk.injEq] at h
    obtain ⟨rest, hrest, rfl, rfl⟩ := h
    exact (List.isPrefixOf?_eq_some_iff_append_eq.1 hrest).symm
  | cons a s ih =>
    rw [cutAt] at h
    split at h
    · next rest hrest =>
      obtain ⟨rfl, rfl⟩ := by simpa using h
      exact (List.isPrefixOf?_eq_some_iff_append_eq.1 hrest).symm
    · simp only [Option.map_eq_some_iff, Prod.mk.injEq, Prod.exists] at h
      obtain ⟨front, rest, hcut, rfl, rfl⟩ := h
      rw [ih hcut]
      rfl

theorem cutAt_append (w after : List α) : cutAt w (w ++ after) = some ([], after) := by
  have hpre : w.isPrefixOf? (w ++ after) = some after :=
    List.isPrefixOf?_eq_some_iff_append_eq.2 rfl
  cases hs : w ++ after with
  | nil =>
    rw [hs] at hpre
    rw [cutAt, hpre, Option.map_some]
  | cons a s =>
    rw [hs] at hpre
    rw [cutAt, hpre]

theorem cutAt_cons_of_not_append {a : α} (h : ∀ after, a :: s ≠ w ++ after) :
    cutAt w (a :: s) = (cutAt w s).map fun (before, after) => (a :: before, after) := by
  have hpre : w.isPrefixOf? (a :: s) = none := by
    rw [Option.eq_none_iff_forall_ne_some]
    intro after hafter
    exact h after (List.isPrefixOf?_eq_some_iff_append_eq.1 hafter).symm
  rw [cutAt, hpre]

/-- A text in which the word occurs is cut at its first occurrence. -/
theorem exists_cutAt_eq_some (before after : List α) :
    ∃ front back, cutAt w (before ++ w ++ after) = some (front, back) ∧
      FirstCut w (before ++ w ++ after) front back := by
  induction before with
  | nil =>
    refine ⟨[], after, cutAt_append w after, rfl, ?_⟩
    intro before' after' _
    exact Nat.zero_le _
  | cons a before ih =>
    by_cases hpre : ∃ back, a :: (before ++ w ++ after) = w ++ back
    · obtain ⟨back, hback⟩ := hpre
      refine ⟨[], back, ?_, hback, fun _ _ _ => Nat.zero_le _⟩
      rw [List.cons_append, List.cons_append, hback]
      exact cutAt_append w back
    · rw [not_exists] at hpre
      obtain ⟨front, back, hcut, hfirst⟩ := ih
      refine ⟨a :: front, back, ?_, congrArg (a :: ·) hfirst.eq_append, ?_⟩
      · rw [List.cons_append, List.cons_append, cutAt_cons_of_not_append hpre, hcut,
          Option.map_some]
      · -- The word does not stand at the beginning, and so every occurrence is one further right.
        rintro (_ | ⟨b, before'⟩) after' hs
        · exact absurd hs (hpre after')
        · exact Nat.succ_le_succ (hfirst.first before' after' (List.cons.inj hs).2)

theorem cutAt_eq_some_iff : cutAt w s = some (before, after) ↔ FirstCut w s before after := by
  constructor
  · intro hcut
    obtain rfl := cutAt_eq_append hcut
    obtain ⟨front, back, hcut', hfirst⟩ := exists_cutAt_eq_some (w := w) before after
    obtain ⟨rfl, rfl⟩ := Prod.mk.inj (Option.some.inj (hcut.symm.trans hcut'))
    exact hfirst
  · intro hfirst
    obtain rfl := hfirst.eq_append
    obtain ⟨front, back, hcut, hfirst'⟩ := exists_cutAt_eq_some (w := w) before after
    obtain ⟨hbefore, hafter⟩ := hfirst'.unique hfirst
    rw [hcut, hbefore, hafter]

theorem cutAt_eq_none_iff : cutAt w s = none ↔ ∀ before after, s ≠ before ++ w ++ after := by
  constructor
  · rintro hnone before after rfl
    obtain ⟨front, back, hcut, -⟩ := exists_cutAt_eq_some (w := w) before after
    rw [hnone] at hcut
    cases hcut
  · intro hnot
    rw [Option.eq_none_iff_forall_ne_some]
    rintro ⟨before, after⟩ hcut
    exact hnot before after (cutAt_eq_append hcut)

end

/-! ### Cutting at one element, or at two of a kind -/

theorem firstCut_singleton_iff {a : α} :
    FirstCut [a] s before after ↔ s = before ++ a :: after ∧ a ∉ before := by
  constructor
  · rintro ⟨rfl, hfirst⟩
    refine ⟨by simp, ?_⟩
    intro ha
    obtain ⟨x, y, rfl⟩ := List.append_of_mem ha
    have hle := hfirst x (y ++ a :: after) (by simp)
    rw [List.length_append, List.length_cons] at hle
    omega
  · rintro ⟨rfl, hnot⟩
    refine ⟨by simp, ?_⟩
    intro before' after' hs
    by_contra hlt
    -- An element that stood further left would be one of those before.
    have hget : (before ++ a :: after)[before'.length]? = some a := by
      rw [hs]
      simp
    rw [List.getElem?_append_left (Nat.lt_of_not_le hlt)] at hget
    exact hnot (List.mem_of_getElem? hget)

/-- An element that is written twice stands first behind a text that neither contains it twice in a
row nor ends with it. -/
theorem firstCut_pair {a : α} (hpair : ¬ [a, a] <:+: before) (hlast : before.getLast? ≠ some a)
    (after : List α) : FirstCut [a, a] (before ++ [a, a] ++ after) before after := by
  refine ⟨rfl, ?_⟩
  intro before' after' hs
  rw [List.append_assoc, List.append_assoc, List.append_eq_append_iff] at hs
  obtain ⟨_, rfl, -⟩ | ⟨rest, rfl, hrest⟩ := hs
  · simp
  · -- Further left, the first of the two, or both of them, would belong to `before`.
    match rest with
    | [] => simp
    | [b] =>
      obtain rfl := (List.cons.inj hrest).1
      exact absurd (by simp) hlast
    | b :: c :: rest =>
      obtain ⟨rfl, htail⟩ := List.cons.inj hrest
      obtain rfl := (List.cons.inj htail).1
      exact absurd ⟨before', rest, by simp⟩ hpair

variable [BEq α] [LawfulBEq α]

theorem cutAt_singleton_eq_some_iff {a : α} :
    cutAt [a] s = some (before, after) ↔ s = before ++ a :: after ∧ a ∉ before := by
  rw [cutAt_eq_some_iff, firstCut_singleton_iff]

theorem cutAt_singleton_eq_none_iff {a : α} : cutAt [a] s = none ↔ a ∉ s := by
  rw [cutAt_eq_none_iff]
  constructor
  · intro hnot ha
    obtain ⟨x, y, rfl⟩ := List.append_of_mem ha
    exact hnot x y (by simp)
  · rintro ha before after rfl
    exact ha (by simp)

/-! ### Cutting at the last occurrence -/

theorem cutAtLast_eq_none_iff {a : α} : cutAtLast a s = none ↔ a ∉ s := by
  induction s with
  | nil => simp [cutAtLast]
  | cons b s ih =>
    rw [cutAtLast, List.mem_cons, not_or, ← ih]
    split
    · next h => simp [h]
    · next h =>
      by_cases hb : b = a
      · simp [hb]
      · simp [h, hb, Ne.symm hb]

theorem cutAtLast_append_cons {a : α} (before : List α) (h : a ∉ after) :
    cutAtLast a (before ++ a :: after) = some (before, after) := by
  induction before with
  | nil => rw [List.nil_append, cutAtLast, cutAtLast_eq_none_iff.2 h, if_pos (beq_self_eq_true a)]
  | cons b before ih => rw [List.cons_append, cutAtLast, ih]

/-- A text is cut at the last occurrence of an element, behind which the element does not stand. -/
theorem cutAtLast_eq_some_iff {a : α} :
    cutAtLast a s = some (before, after) ↔ s = before ++ a :: after ∧ a ∉ after := by
  constructor
  · intro hcut
    induction s generalizing before with
    | nil => cases hcut
    | cons b s ih =>
      rw [cutAtLast] at hcut
      split at hcut
      · next front back hs =>
        obtain ⟨rfl, rfl⟩ := Prod.mk.inj (Option.some.inj hcut)
        obtain ⟨rfl, hnot⟩ := ih hs
        exact ⟨rfl, hnot⟩
      · next hs =>
        split at hcut
        · next hb =>
          obtain ⟨rfl, rfl⟩ := Prod.mk.inj (Option.some.inj hcut)
          exact ⟨by rw [eq_of_beq hb, List.nil_append], cutAtLast_eq_none_iff.1 hs⟩
        · cases hcut
  · rintro ⟨rfl, hnot⟩
    exact cutAtLast_append_cons before hnot

end ClassDiagram.Text
