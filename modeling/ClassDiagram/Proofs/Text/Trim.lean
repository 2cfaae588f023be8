import ClassDiagram.Text.Blank
import Mathlib.Data.List.DropRight

/-!
# Trimming parts of a text

Trimming removes white space on both sides of a text and nothing else (`trim_eq_self_iff`), and
nothing is left of a blank text (`trim_eq_nil_iff`).

A text is its trim between two blank texts (`exists_eq_append_trim`), and blank texts around it do
not matter (`trim_append_of_isBlank`, `trim_append_isBlank`).  Where a text has a word in the middle
that neither begins nor ends with white space, trimming works on what stands on either side of it
(`trim_append_word`).  So characters that are no white space stand in the trim as they stand in the
text (`mem_trim_iff`, `isInfix_trim_of_isInfix`).

Dropping from one end of a list leaves the other end as it is (`rdropWhile_dropWhile`), so that
trimming treats both ends alike (`trim_reverse`) and a second time changes nothing (`trim_trim`).
-/

namespace ClassDiagram.Text

/-! ### Dropping from one end -/

section Drop

variable {α : Type} {p : α → Bool}

theorem dropEndWhile_eq_rdropWhile (p : α → Bool) (s : List α) :
    dropEndWhile p s = s.rdropWhile p := rfl

/-- Where an element not satisfying `p` follows, dropping ends at the latest there. -/
theorem dropWhile_append_cons {s t : List α} {a : α} (h : p a = false) :
    (s ++ a :: t).dropWhile p = s.dropWhile p ++ a :: t := by
  rw [List.dropWhile_append, List.dropWhile_cons_of_neg (by simp [h])]
  split
  · next hnil => rw [List.isEmpty_iff.1 hnil, List.nil_append]
  · rfl

theorem rdropWhile_append_of_forall {s t : List α} (h : ∀ a ∈ t, p a = true) :
    (s ++ t).rdropWhile p = s.rdropWhile p := by
  unfold List.rdropWhile
  rw [List.reverse_append, List.dropWhile_append_of_pos]
  intro a ha
  exact h a (List.mem_reverse.1 ha)

theorem rdropWhile_append_cons {s t : List α} {a : α} (h : p a = false) :
    (s ++ a :: t).rdropWhile p = s ++ a :: t.rdropWhile p := by
  unfold List.rdropWhile
  rw [List.reverse_append, List.reverse_cons, List.append_assoc, List.singleton_append,
    dropWhile_append_cons h]
  simp

theorem rdropWhile_eq_self_iff_getLast? {s : List α} :
    s.rdropWhile p = s ↔ ∀ a, s.getLast? = some a → p a = false := by
  rw [List.rdropWhile_eq_self_iff]
  constructor
  · intro h a ha
    obtain ⟨front, rfl⟩ := List.getLast?_eq_some_iff.1 ha
    simpa using h (by simp)
  · intro h hne
    simp [h _ (List.getLast?_eq_some_getLast hne)]

end Drop

/-! ### Dropping from both ends -/

section

variable {α : Type} (p q : α → Bool)

theorem rdropWhile_cons (a : α) (s : List α) :
    (a :: s).rdropWhile p =
      if s.rdropWhile p = [] ∧ p a = true then [] else a :: s.rdropWhile p := by
  unfold List.rdropWhile
  rw [List.reverse_cons, List.dropWhile_append]
  by_cases hs : s.reverse.dropWhile p = []
  · by_cases ha : p a = true
    · simp [hs, ha]
    · simp [hs, ha]
  · simp [hs]

/-- It does not matter at which end dropping begins. -/
theorem rdropWhile_dropWhile (s : List α) :
    (s.dropWhile p).rdropWhile q = (s.rdropWhile q).dropWhile p := by
  induction s with
  | nil => rfl
  | cons a s ih =>
    by_cases ha : p a = true
    · rw [List.dropWhile_cons_of_pos ha, ih, rdropWhile_cons]
      split
      · next h => rw [h.1]
      · rw [List.dropWhile_cons_of_pos ha]
    · rw [List.dropWhile_cons_of_neg ha, rdropWhile_cons]
      split
      · rfl
      · rw [List.dropWhile_cons_of_neg ha]

end

/-! ### What trimming leaves -/

theorem trim_eq_rdropWhile (s : List Char) : trim s = (s.dropWhile isSpace).rdropWhile isSpace :=
  dropEndWhile_eq_rdropWhile _ _

theorem isBlank_iff {s : List Char} : isBlank s = true ↔ ∀ c ∈ s, isSpace c = true :=
  List.all_eq_true

theorem exists_eq_append_dropWhile (s : List Char) :
    ∃ a, s = a ++ s.dropWhile isSpace ∧ isBlank a = true :=
  ⟨s.takeWhile isSpace, List.takeWhile_append_dropWhile.symm, List.all_takeWhile⟩

theorem exists_eq_rdropWhile_append (s : List Char) :
    ∃ b, s = s.rdropWhile isSpace ++ b ∧ isBlank b = true :=
  ⟨s.rtakeWhile isSpace, List.rdropWhile_append_rtakeWhile.symm,
    isBlank_iff.2 fun _ => List.mem_rtakeWhile_imp⟩

theorem exists_eq_append_trim (s : List Char) :
    ∃ a b, s = a ++ (trim s ++ b) ∧ isBlank a = true ∧ isBlank b = true := by
  obtain ⟨a, ha, hblank⟩ := exists_eq_append_dropWhile s
  obtain ⟨b, hb, hblank'⟩ := exists_eq_rdropWhile_append (s.dropWhile isSpace)
  refine ⟨a, b, ?_, hblank, hblank'⟩
  rw [trim_eq_rdropWhile, ← hb, ← ha]

/-- Nothing is left of a blank text, and of no other. -/
theorem trim_eq_nil_iff (s : List Char) : trim s = [] ↔ isBlank s = true := by
  constructor
  · intro h
    obtain ⟨a, b, hs, ha, hb⟩ := exists_eq_append_trim s
    rw [hs, h, List.nil_append, isBlank, List.all_append, Bool.and_eq_true]
    exact ⟨ha, hb⟩
  · intro h
    rw [trim_eq_rdropWhile, List.dropWhile_eq_nil_iff.2 (isBlank_iff.1 h), List.rdropWhile_nil]

theorem isBlank_eq_false_iff {s : List Char} : isBlank s = false ↔ trim s ≠ [] := by
  rw [← Bool.not_eq_true, ← trim_eq_nil_iff]

theorem isBlank_eq_false_of_mem {s : List Char} {c : Char} (hc : c ∈ s) (h : isSpace c = false) :
    isBlank s = false := by
  rw [isBlank, List.all_eq_false]
  exact ⟨c, hc, by simp [h]⟩

theorem trim_reverse (s : List Char) : trim s.reverse = (trim s).reverse := by
  rw [trim_eq_rdropWhile, trim_eq_rdropWhile, rdropWhile_dropWhile, List.rdropWhile_reverse,
    List.rdropWhile, List.reverse_reverse]

/-- A trimmed text does not begin with white space. -/
theorem head?_trim {s : List Char} {c : Char} (h : (trim s).head? = some c) :
    isSpace c = false := by
  rw [trim_eq_rdropWhile, rdropWhile_dropWhile] at h
  have hnot := List.head?_dropWhile_not isSpace (s.rdropWhile isSpace)
  rw [h] at hnot
  simpa using hnot

/-- A trimmed text does not end with white space. -/
theorem getLast?_trim {s : List Char} {c : Char} (h : (trim s).getLast? = some c) :
    isSpace c = false := by
  rw [← List.head?_reverse, ← trim_reverse] at h
  exact head?_trim h

/-- A text is its own trim just when it neither begins nor ends with white space. -/
theorem trim_eq_self_iff (s : List Char) :
    trim s = s ↔ (∀ c, s.head? = some c → isSpace c = false) ∧
      ∀ c, s.getLast? = some c → isSpace c = false := by
  constructor
  · intro h
    exact ⟨fun c hc => head?_trim (h.symm ▸ hc), fun c hc => getLast?_trim (h.symm ▸ hc)⟩
  · rintro ⟨hhead, hlast⟩
    have hleft : s.dropWhile isSpace = s := by
      cases s with
      | nil => rfl
      | cons c s => exact List.dropWhile_cons_of_neg (by simp [hhead c rfl])
    rw [trim_eq_rdropWhile, hleft, rdropWhile_eq_self_iff_getLast?]
    exact hlast

/-- Trimming a second time changes nothing. -/
theorem trim_trim (s : List Char) : trim (trim s) = trim s := by
  rw [trim_eq_rdropWhile, trim_eq_rdropWhile, ← rdropWhile_dropWhile, List.dropWhile_idempotent,
    List.rdropWhile_idempotent]

/-- A text without any white space is its own trim. -/
theorem trim_eq_self_of_forall {s : List Char} (h : ∀ c ∈ s, isSpace c = false) : trim s = s :=
  (trim_eq_self_iff s).2
    ⟨fun c hc => h c (List.mem_of_head? hc), fun c hc => h c (List.mem_of_getLast? hc)⟩

@[simp] theorem isBlank_nil : isBlank [] = true := rfl

@[simp] theorem trim_nil : trim [] = [] := rfl

/-! ### White space around a text -/

theorem trim_append_of_isBlank {a : List Char} (h : isBlank a = true) (s : List Char) :
    trim (a ++ s) = trim s := by
  rw [trim, List.dropWhile_append_of_pos (isBlank_iff.1 h), trim]

theorem trim_append_isBlank {b : List Char} (h : isBlank b = true) (s : List Char) :
    trim (s ++ b) = trim s := by
  rw [trim_eq_rdropWhile, rdropWhile_dropWhile, rdropWhile_append_of_forall (isBlank_iff.1 h),
    ← rdropWhile_dropWhile, ← trim_eq_rdropWhile]

@[simp] theorem trim_dropWhile (s : List Char) : trim (s.dropWhile isSpace) = trim s := by
  obtain ⟨a, ha, hblank⟩ := exists_eq_append_dropWhile s
  conv_rhs => rw [ha]
  rw [trim_append_of_isBlank hblank]

@[simp] theorem trim_rdropWhile (s : List Char) : trim (s.rdropWhile isSpace) = trim s := by
  obtain ⟨b, hb, hblank⟩ := exists_eq_rdropWhile_append s
  conv_rhs => rw [hb]
  rw [trim_append_isBlank hblank]

/-- Around a character that is no white space, trimming is done on each side of it. -/
theorem trim_append_cons {l r : List Char} {x : Char} (hx : isSpace x = false) :
    trim (l ++ x :: r) = l.dropWhile isSpace ++ x :: r.rdropWhile isSpace := by
  rw [trim_eq_rdropWhile, dropWhile_append_cons hx, rdropWhile_append_cons hx]

/-- Around a word that neither begins nor ends with white space, trimming is done on each side of
it. -/
theorem trim_append_word {l r : List Char} {x y : Char} {w : List Char}
    (hx : isSpace x = false) (hy : isSpace y = false) :
    trim (l ++ x :: (w ++ y :: r)) =
      l.dropWhile isSpace ++ x :: (w ++ y :: r.rdropWhile isSpace) := by
  -- From the left, dropping ends at `x`; from the right, it ends at `y`.
  rw [trim_append_cons hx, ← List.cons_append, rdropWhile_append_cons hy, List.cons_append]

/-- Trimming takes nothing but white space away. -/
theorem mem_trim_iff {s : List Char} {c : Char} (hc : isSpace c = false) : c ∈ trim s ↔ c ∈ s := by
  constructor
  · intro h
    obtain ⟨a, b, hs, -, -⟩ := exists_eq_append_trim s
    rw [hs]
    simp [h]
  · intro h
    obtain ⟨l, r, rfl⟩ := List.append_of_mem h
    simp [trim_append_cons hc]

/-- Two neighbours that are no white space are neighbours in the trim as well. -/
theorem isInfix_trim_of_isInfix {s : List Char} {x y : Char} (hx : isSpace x = false)
    (hy : isSpace y = false) (h : [x, y] <:+: s) : [x, y] <:+: trim s := by
  obtain ⟨l, r, rfl⟩ := h
  refine ⟨l.dropWhile isSpace, r.rdropWhile isSpace, ?_⟩
  simpa using (trim_append_word (l := l) (w := []) (r := r) hx hy).symm

/-- A text that ends with a character that is no white space has a trim that ends with it. -/
theorem getLast?_trim_of_getLast? {s : List Char} {x : Char} (hx : isSpace x = false)
    (h : s.getLast? = some x) : (trim s).getLast? = some x := by
  obtain ⟨l, rfl⟩ := List.getLast?_eq_some_iff.1 h
  simp [trim_append_cons hx]

/-- A text between two characters that are no white space is its own trim. -/
theorem trim_cons_append_singleton {x y : Char} (w : List Char) (hx : isSpace x = false)
    (hy : isSpace y = false) : trim (x :: (w ++ [y])) = x :: (w ++ [y]) :=
  trim_append_word (l := []) (r := []) hx hy

end ClassDiagram.Text
