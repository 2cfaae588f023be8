import ClassDiagram.Text.Cut

/-!
# Pieces between separators

`pieces` is `List.splitOnP`, so that what is known of the latter holds of it: a separator parts the
pieces before it from those behind it (`pieces_append_cons`).  No piece has a separator in it
(`eq_false_of_mem_pieces`), and texts without separators are the pieces of their join
(`pieces_intercalate`).  What stands behind the last separator is the last piece
(`getLast_pieces_append_cons`).
-/

namespace ClassDiagram.Text

variable {α : Type} {p : α → Bool} {s before after : List α}

theorem pieces_eq_splitOnP (p : α → Bool) (s : List α) : pieces p s = s.splitOnP p := by
  induction s with
  | nil => rfl
  | cons a s ih =>
    rw [pieces, List.splitOnP_cons_eq_if_modifyHead, ih]
    split
    · rfl
    · split
      · next h => exact absurd h (List.splitOnP_ne_nil p s)
      · next h => rw [h, List.modifyHead_cons]

/-- Around a separator stand the pieces of what is before it and of what is behind it. -/
theorem pieces_append_cons {a : α} (ha : p a = true) (before after : List α) :
    pieces p (before ++ a :: after) = pieces p before ++ pieces p after := by
  simp only [pieces_eq_splitOnP]
  exact List.splitOnP_append_cons before after ha

theorem pieces_of_forall (h : ∀ a ∈ s, p a = false) : pieces p s = [s] := by
  rw [pieces_eq_splitOnP]
  exact List.splitOnP_eq_singleton h

theorem eq_false_of_mem_pieces {piece : List α} (h : piece ∈ pieces p s) :
    ∀ a ∈ piece, p a = false := by
  induction s generalizing piece with
  | nil =>
    obtain rfl := List.mem_singleton.1 h
    exact fun a ha => absurd ha List.not_mem_nil
  | cons b s ih =>
    rw [pieces] at h
    split at h
    · rcases List.mem_cons.1 h with rfl | h
      · exact fun a ha => absurd ha List.not_mem_nil
      · exact ih h
    · next hb =>
      obtain ⟨first, rest, hpieces⟩ := List.exists_cons_of_ne_nil (pieces_ne_nil p s)
      rw [hpieces] at h ih
      rcases List.mem_cons.1 h with rfl | h
      · intro a ha
        rcases List.mem_cons.1 ha with rfl | ha
        · simpa using hb
        · exact ih List.mem_cons_self a ha
      · exact ih (List.mem_cons_of_mem _ h)

/-- Texts without separators are found again when they have been joined with one. -/
theorem pieces_intercalate {a : α} (ha : p a = true) {ps : List (List α)} (hne : ps ≠ [])
    (h : ∀ piece ∈ ps, ∀ b ∈ piece, p b = false) : pieces p ([a].intercalate ps) = ps := by
  induction ps with
  | nil => exact absurd rfl hne
  | cons piece ps ih =>
    have hpiece := h piece List.mem_cons_self
    by_cases hnil : ps = []
    · rw [hnil, List.intercalate_singleton, pieces_of_forall hpiece]
    · rw [List.intercalate_cons_of_ne_nil hnil, List.append_assoc, List.singleton_append,
        pieces_append_cons ha, pieces_of_forall hpiece,
        ih hnil fun q hq => h q (List.mem_cons_of_mem _ hq), List.singleton_append]

/-- The last piece is what stands behind the last separator. -/
theorem getLast_pieces_append_cons {a : α} (ha : p a = true) (h : ∀ b ∈ after, p b = false) :
    (pieces p (before ++ a :: after)).getLast (pieces_ne_nil p _) = after := by
  apply Option.some.inj
  rw [← List.getLast?_eq_some_getLast, pieces_append_cons ha, pieces_of_forall h,
    List.getLast?_concat]

theorem getLast_pieces_of_forall (h : ∀ a ∈ s, p a = false) :
    (pieces p s).getLast (pieces_ne_nil p s) = s := by
  apply Option.some.inj
  rw [← List.getLast?_eq_some_getLast, pieces_of_forall h, List.getLast?_singleton]

end ClassDiagram.Text
