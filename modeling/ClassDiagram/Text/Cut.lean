/-!
# Cutting texts

A text is cut in two at the first occurrence of a word (`cutAt`), at the last occurrence of an
element (`cutAtLast`), or into all the pieces between separators (`pieces`).  The functions work
on lists of any kind: characters of a name, or bytes of a document.

`flatten_pieces` says that cutting into pieces loses nothing but the separators, and
`length_after_cutAt` that no cut leaves more to read.
-/

namespace ClassDiagram.Text

variable {α : Type}

/-! ### Cutting in two -/

/-- What stands before and after the first occurrence of the word `w`, `none` without one. -/
def cutAt [BEq α] (w : List α) : List α → Option (List α × List α)
  | [] => (w.isPrefixOf? []).map fun rest => ([], rest)
  | a :: s =>
    match w.isPrefixOf? (a :: s) with
    | some rest => some ([], rest)
    | none => (cutAt w s).map fun (before, after) => (a :: before, after)

/-- What stands before and after the last occurrence of `x`, `none` without one. -/
def cutAtLast [BEq α] (x : α) : List α → Option (List α × List α)
  | [] => none
  | a :: s =>
    match cutAtLast x s with
    | some (before, after) => some (a :: before, after)
    | none => if a == x then some ([], s) else none

/-! ### Cutting into pieces -/

/-- The first piece, and the pieces after it, of a list cut at the elements satisfying `p`. -/
def pieces (p : α → Bool) : List α → List (List α)
  | [] => [[]]
  | a :: s =>
    if p a then [] :: pieces p s
    else match pieces p s with
      | [] => [[a]]
      | piece :: rest => (a :: piece) :: rest

/-! ### Laws -/

theorem length_of_isPrefixOf? [BEq α] {w s rest : List α} (h : w.isPrefixOf? s = some rest) :
    w.length + rest.length = s.length := by
  induction w generalizing s with
  | nil =>
    obtain rfl : s = rest := Option.some.inj h
    rw [List.length_nil, Nat.zero_add]
  | cons x w ih =>
    cases s with
    | nil => cases h
    | cons a s =>
      change (if x == a then w.isPrefixOf? s else none) = some rest at h
      split at h
      · have hrest := ih h
        simp only [List.length_cons]
        omega
      · cases h

/-- A cut leaves less to read. -/
theorem length_after_cutAt [BEq α] {w s before after : List α}
    (h : cutAt w s = some (before, after)) :
    before.length + w.length + after.length = s.length := by
  induction s generalizing before with
  | nil =>
    simp only [cutAt, Option.map_eq_some_iff, Prod.mk.injEq] at h
    obtain ⟨rest, hrest, rfl, rfl⟩ := h
    rw [List.length_nil, Nat.zero_add]
    exact length_of_isPrefixOf? hrest
  | cons a s ih =>
    rw [cutAt] at h
    split at h
    · next rest hrest =>
      obtain ⟨rfl, rfl⟩ := by simpa using h
      rw [List.length_nil, Nat.zero_add]
      exact length_of_isPrefixOf? hrest
    · simp only [Option.map_eq_some_iff, Prod.mk.injEq, Prod.exists] at h
      obtain ⟨front, rest, hcut, rfl, rfl⟩ := h
      have hlength := ih hcut
      simp only [List.length_cons]
      omega

/-- There is always a first piece, if only an empty one. -/
theorem pieces_ne_nil (p : α → Bool) (s : List α) : pieces p s ≠ [] := by
  cases s with
  | nil => simp [pieces]
  | cons a s =>
    rw [pieces]
    split
    · simp
    · split <;> simp

/-- Cutting into pieces keeps everything but the separators, in order. -/
theorem flatten_pieces (p : α → Bool) (s : List α) :
    (pieces p s).flatten = s.filter (fun a => !p a) := by
  induction s with
  | nil => rfl
  | cons a s ih =>
    rw [pieces]
    split
    · next h => simpa [h] using ih
    · next h =>
      split
      · next hp => exact absurd hp (pieces_ne_nil p s)
      · next hp =>
        rw [hp] at ih
        simpa [h] using ih

end ClassDiagram.Text
