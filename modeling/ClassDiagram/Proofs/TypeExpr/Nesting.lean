import ClassDiagram.Proofs.Text.Trim
import ClassDiagram.TypeExpr.Bracket
import Mathlib.Algebra.BigOperators.Group.List.Basic
import Mathlib.Tactic.Linarith

/-!
# Properly nested texts and the level of a position

The scans of a type expression do not pair brackets, they count them: some count all brackets
alike, one counts parentheses only.  A `Counter` is a way of counting under which a closing bracket
takes back what its opening bracket added.  Whatever the counter, a properly nested text counts to
zero (`Counter.level_of_wellNested`), no beginning of it counts to less
(`Counter.level_nonneg`), and where a beginning counts to zero and has met no bracket that the
counter overlooks, that beginning is properly nested itself (`Counter.wellNested_of_level`).  So
the positions at which the scans cut are those at which all brackets are closed.
-/

namespace ClassDiagram.TypeExpr

open ClassDiagram.Text

/-! ### Plain characters -/

/-- A character that is no bracket. -/
def IsPlain (c : Char) : Prop := isOpening c = false ∧ isClosing c = false

instance (c : Char) : Decidable (IsPlain c) := inferInstanceAs (Decidable (_ ∧ _))

theorem isPlain_iff {c : Char} : IsPlain c ↔ ∀ x ∈ "[]()".toList, c ≠ x := by
  have hchars : "[]()".toList = ['[', ']', '(', ')'] := rfl
  rw [hchars]
  simp only [IsPlain, isOpening, isClosing, Bool.or_eq_false_iff, decide_eq_false_iff_not,
    List.forall_mem_cons, List.not_mem_nil, IsEmpty.forall_iff, implies_true, and_true]
  tauto

/-- A class of characters without a bracket in it holds plain characters only. -/
theorem isPlain_of_class {p : Char → Bool} (hp : "[]()".toList.any p = false) {c : Char}
    (h : p c = true) : IsPlain c := by
  rw [isPlain_iff]
  rintro x hx rfl
  exact List.any_eq_false.1 hp c hx h

theorem isPlain_of_isSpace {c : Char} (h : isSpace c = true) : IsPlain c :=
  isPlain_of_class (by decide) h

theorem isPlain_of_isAlpha {c : Char} (h : c.isAlpha = true) : IsPlain c :=
  isPlain_of_class (by decide) h

theorem isOpening_of_closing? {o c : Char} (h : closing? o = some c) : isOpening o = true := by
  by_contra hn
  rw [closing?_eq_none_iff.2 (by simpa using hn)] at h
  simp at h

/-- No bracket both opens and closes. -/
theorem isClosing_eq_false_of_isOpening {c : Char} (h : isOpening c = true) :
    isClosing c = false := by
  by_contra hclosing
  have hnone := closing?_eq_none_iff.1 (closing?_of_isClosing (by simpa using hclosing))
  rw [h] at hnone
  cases hnone

/-! ### Putting nested texts together -/

theorem wellNested_of_forall_plain {s : List Char} (h : ∀ c ∈ s, IsPlain c) : WellNested s := by
  induction s with
  | nil => exact .nil
  | cons c s ih =>
    have hc := h c List.mem_cons_self
    exact .char hc.1 hc.2 (ih fun d hd => h d (List.mem_cons_of_mem _ hd))

theorem wellNested_of_all_plain {s : List Char} (h : s.all (fun c => decide (IsPlain c)) = true) :
    WellNested s :=
  wellNested_of_forall_plain fun c hc => of_decide_eq_true (List.all_eq_true.1 h c hc)

theorem wellNested_of_isBlank {s : List Char} (h : isBlank s = true) : WellNested s :=
  wellNested_of_forall_plain fun c hc => isPlain_of_isSpace (isBlank_iff.1 h c hc)

/-- After a properly nested text, what is left has to be properly nested on its own. -/
theorem wellNested_append_iff {s t : List Char} (hs : WellNested s) :
    WellNested (s ++ t) ↔ WellNested t := by
  rw [← isNested_iff, ← isNested_iff, isNested, isNestedWith_append hs, isNested]

theorem WellNested.append {s t : List Char} (hs : WellNested s) (ht : WellNested t) :
    WellNested (s ++ t) :=
  (wellNested_append_iff hs).2 ht

theorem wellNested_cons_iff {c : Char} {s : List Char} (hc : IsPlain c) :
    WellNested (c :: s) ↔ WellNested s :=
  wellNested_append_iff (s := [c]) (.char hc.1 hc.2 .nil)

theorem WellNested.bracketed {o c : Char} {s : List Char} (h : closing? o = some c)
    (hs : WellNested s) : WellNested (o :: (s ++ [c])) :=
  .pair h hs .nil

/-- Behind an opening bracket stand a properly nested text, the bracket that closes it, and another
properly nested text. -/
theorem WellNested.exists_of_cons {o c : Char} {s : List Char} (h : closing? o = some c)
    (hs : WellNested (o :: s)) : ∃ m w, s = m ++ c :: w ∧ WellNested m ∧ WellNested w := by
  rw [← isNested_iff, isNested, isNestedWith, h] at hs
  obtain ⟨m, w, hmw, hm, hw⟩ := exists_wellNested_of_isNestedWith_cons s.length (Nat.le_refl _) hs
  exact ⟨m, w, hmw, hm, isNested_iff.1 hw⟩

/-! ### Counters -/

/-- A way of counting brackets: a closing bracket takes back what its opening bracket added. -/
structure Counter where
  /-- What a character adds to the count. -/
  step : Char → Int
  /-- Only brackets count. -/
  step_of_isPlain : ∀ {c}, IsPlain c → step c = 0
  /-- An opening bracket never lowers the count. -/
  step_nonneg : ∀ {o}, isOpening o = true → 0 ≤ step o
  /-- A pair of brackets adds nothing. -/
  step_add_step : ∀ {o c}, closing? o = some c → step o + step c = 0

/-- What a parenthesis adds to the number of open parentheses. -/
def parenStep (c : Char) : Int := if c = '(' then 1 else if c = ')' then -1 else 0

theorem eq_of_closing? {o c : Char} (h : closing? o = some c) :
    o = '[' ∧ c = ']' ∨ o = '(' ∧ c = ')' := by
  unfold closing? at h
  split at h
  · next ho => exact .inl ⟨ho, by simpa using h.symm⟩
  · split at h
    · next ho => exact .inr ⟨ho, by simpa using h.symm⟩
    · simp at h

namespace Counter

/-- Counts brackets of both kinds. -/
def brackets : Counter where
  step := depthStep
  step_of_isPlain h := by simp [depthStep, h.1, h.2]
  step_nonneg h := by simp [depthStep, h]
  step_add_step h := by rcases eq_of_closing? h with ⟨rfl, rfl⟩ | ⟨rfl, rfl⟩ <;> rfl

/-- Counts parentheses only. -/
def parens : Counter where
  step := parenStep
  step_of_isPlain {c} h := by
    have ho : c ≠ '(' := by rintro rfl; exact absurd h.1 (by decide)
    have hc : c ≠ ')' := by rintro rfl; exact absurd h.2 (by decide)
    rw [parenStep, if_neg ho, if_neg hc]
  step_nonneg {o} h := by
    have hc : o ≠ ')' := by rintro rfl; exact absurd h (by decide)
    rw [parenStep, if_neg hc]
    split <;> decide
  step_add_step h := by rcases eq_of_closing? h with ⟨rfl, rfl⟩ | ⟨rfl, rfl⟩ <;> rfl

variable (C : Counter)

/-- What a text counts to. -/
def level (s : List Char) : Int := (s.map C.step).sum

@[simp] theorem level_nil : C.level [] = 0 := rfl

@[simp] theorem level_cons (c : Char) (s : List Char) :
    C.level (c :: s) = C.step c + C.level s := by
  simp [level]

@[simp] theorem level_append (s t : List Char) :
    C.level (s ++ t) = C.level s + C.level t := by
  simp [level]

theorem brackets_level (s : List Char) : brackets.level s = depth s := rfl

theorem level_of_wellNested {s : List Char} (hs : WellNested s) : C.level s = 0 := by
  induction hs with
  | nil => rfl
  | @char c s ho hc _ ih => rw [level_cons, C.step_of_isPlain ⟨ho, hc⟩, ih, add_zero]
  | @pair o c s t hoc _ _ ihs iht =>
    have hpair : C.step o + C.step c = 0 := C.step_add_step hoc
    simp only [List.cons_append, level_cons, level_append, ihs, iht]
    omega

theorem level_pair {o c : Char} {s : List Char} (hoc : closing? o = some c) (hs : WellNested s) :
    C.level (o :: (s ++ [c])) = 0 :=
  C.level_of_wellNested (hs.bracketed hoc)

end Counter

/-! ### Beginnings of nested texts -/

/-- A text that begins with a pair of brackets begins with nothing, with a part of what the pair
holds, or with the whole pair. -/
theorem append_eq_pair_cases {o c : Char} {s t p q : List Char}
    (h : p ++ q = o :: (s ++ c :: t)) :
    p = [] ∨ (∃ a b, p = o :: a ∧ s = a ++ b ∧ q = b ++ c :: t) ∨
      ∃ a, p = o :: (s ++ c :: a) ∧ t = a ++ q := by
  cases p with
  | nil => exact .inl rfl
  | cons x p =>
    rw [List.cons_append, List.cons.injEq] at h
    obtain ⟨rfl, h⟩ := h
    rcases List.append_eq_append_iff.1 h with ⟨b, hs, hq⟩ | ⟨b, rfl, hq⟩
    · exact .inr (.inl ⟨p, b, rfl, hs, hq⟩)
    · cases b with
      -- The beginning ends just before the closing bracket.
      | nil => exact .inr (.inl ⟨s, [], by simp, by simp, by simpa using hq.symm⟩)
      | cons y b =>
        obtain ⟨rfl, ht⟩ := List.cons.inj hq
        exact .inr (.inr ⟨b, rfl, ht⟩)

namespace Counter

variable (C : Counter)

theorem level_nonneg {p q : List Char} (h : WellNested (p ++ q)) : 0 ≤ C.level p := by
  generalize hu : p ++ q = u at h
  induction h generalizing p q with
  | nil => rw [(List.append_eq_nil_iff.1 hu).1]; rfl
  | @char c s ho hc _ ih =>
    cases p with
    | nil => rfl
    | cons x p =>
      rw [List.cons_append, List.cons.injEq] at hu
      obtain ⟨rfl, hu⟩ := hu
      rw [level_cons, C.step_of_isPlain ⟨ho, hc⟩, zero_add]
      exact ih hu
  | @pair o c s t hoc hs _ ihs iht =>
    rw [List.cons_append] at hu
    rcases append_eq_pair_cases hu with rfl | ⟨a, b, rfl, rfl, -⟩ | ⟨a, rfl, rfl⟩
    · rfl
    · -- The beginning ends inside the pair.
      have h0 : 0 ≤ C.step o := C.step_nonneg (isOpening_of_closing? hoc)
      have h1 : 0 ≤ C.level a := ihs rfl
      rw [level_cons]
      omega
    · -- The beginning holds the whole pair, which counts to zero.
      have h0 : C.step o + C.step c = 0 := C.step_add_step hoc
      have h1 : 0 ≤ C.level a := iht rfl
      simp only [level_cons, level_append, C.level_of_wellNested hs]
      omega

/-- A beginning of a properly nested text is properly nested if it counts to zero and holds, at
level zero, no opening bracket that the counter overlooks. -/
theorem wellNested_of_level {p q : List Char} (h : WellNested (p ++ q)) (h0 : C.level p = 0)
    (hseen : ∀ a o b, p = a ++ o :: b → C.level a = 0 → isOpening o = true → C.step o ≠ 0) :
    WellNested p := by
  generalize hu : p ++ q = u at h
  induction h generalizing p q with
  | nil => rw [(List.append_eq_nil_iff.1 hu).1]; exact .nil
  | @char c s ho hc _ ih =>
    cases p with
    | nil => exact .nil
    | cons x p =>
      rw [List.cons_append, List.cons.injEq] at hu
      obtain ⟨rfl, hu⟩ := hu
      have hx := C.step_of_isPlain ⟨ho, hc⟩
      rw [level_cons, hx, zero_add] at h0
      refine .char ho hc (ih h0 (fun a o b hp ha => hseen (x :: a) o b ?_ ?_) hu)
      · rw [hp, List.cons_append]
      · rw [level_cons, hx, ha, add_zero]
  | @pair o c s t hoc hs _ ihs iht =>
    rw [List.cons_append] at hu
    have ho := isOpening_of_closing? hoc
    rcases append_eq_pair_cases hu with rfl | ⟨a, b, rfl, rfl, -⟩ | ⟨a, rfl, rfl⟩
    · exact .nil
    · -- The pair is still open here, so the count cannot be zero.
      have h1 : 0 ≤ C.step o := C.step_nonneg ho
      have h2 : C.step o ≠ 0 := hseen [] o a rfl rfl ho
      have h3 : 0 ≤ C.level a := C.level_nonneg hs
      rw [level_cons] at h0
      omega
    · -- What follows the pair is at level zero where the whole beginning is.
      have hpair := C.level_pair hoc hs
      have happ : o :: (s ++ c :: a) = o :: (s ++ [c]) ++ a := by simp
      rw [happ, level_append, hpair, zero_add] at h0
      refine .pair hoc hs (iht h0 (fun x y z hp hx => hseen (o :: (s ++ [c]) ++ x) y z ?_ ?_) rfl)
      · rw [happ, hp, List.append_assoc]
      · rw [level_append, hpair, hx, zero_add]

end Counter

theorem wellNested_of_depth {p q : List Char} (h : WellNested (p ++ q)) (h0 : depth p = 0) :
    WellNested p := by
  refine Counter.brackets.wellNested_of_level h h0 ?_
  intro a o b _ _ ho
  show depthStep o ≠ 0
  rw [depthStep, if_pos ho]
  decide

theorem depth_of_wellNested {s : List Char} (h : WellNested s) : depth s = 0 :=
  Counter.brackets.level_of_wellNested h

/-- Before a properly nested text, what comes first has to be properly nested on its own. -/
theorem wellNested_append_iff_left {s t : List Char} (ht : WellNested t) :
    WellNested (s ++ t) ↔ WellNested s := by
  refine ⟨fun h => wellNested_of_depth h ?_, fun hs => hs.append ht⟩
  have hst : Counter.brackets.level (s ++ t) = 0 := Counter.level_of_wellNested _ h
  have ht0 : Counter.brackets.level t = 0 := Counter.level_of_wellNested _ ht
  rw [Counter.level_append] at hst
  rw [← Counter.brackets_level]
  omega

/-- White space around a text does not matter to its nesting. -/
theorem wellNested_trim_iff {s : List Char} : WellNested (trim s) ↔ WellNested s := by
  obtain ⟨a, b, hs, ha, hb⟩ := exists_eq_append_trim s
  conv_rhs => rw [hs]
  rw [wellNested_append_iff (wellNested_of_isBlank ha),
    wellNested_append_iff_left (wellNested_of_isBlank hb)]

end ClassDiagram.TypeExpr
