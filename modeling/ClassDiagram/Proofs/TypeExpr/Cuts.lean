import ClassDiagram.Proofs.TypeExpr.Nesting
import Mathlib.Data.List.Infix

/-!
# Where the scans cut

`Counter.Meets` says that a word occurs where a counter stands at zero, and `Counter.CutsAt` that a
text is cut at the first such place.  The scans for an arrow and for a `[` outside parentheses both
cut there, each with its own counter (`cutArrow_eq_some_iff`, `cutOpen_eq_some_iff`).  The scan for
a closing bracket passes over properly nested texts (`cutClose_append`), so that on a properly
nested text it finds the partner of the opening bracket (`parenthesized?_eq_some_iff`).  The cut at
commas gives the parts between the commas at level zero and no other texts
(`segments_intercalate`, `wellNested_of_mem_segments`, `intercalate_segments`).  A blank behind each
comma, as in lists that are written out, belongs to the part that follows
(`intercalate_comma_blank`).
-/

namespace ClassDiagram.TypeExpr

open ClassDiagram.Text

/-! ### Words at level zero -/

/-- A word that cannot overlap itself: no part at its beginning is also one at its end. -/
structure Unbordered (w : List Char) : Prop where
  ne_nil : w ≠ []
  eq_nil_or : ∀ x y z, w = x ++ y → w = y ++ z → x = [] ∨ y = []

theorem unbordered_singleton (c : Char) : Unbordered [c] where
  ne_nil := List.cons_ne_nil _ _
  eq_nil_or := by
    intro x y z hx _
    cases x with
    | nil => exact .inl rfl
    | cons a x => exact .inr (List.append_eq_nil_iff.1 (List.cons.inj hx).2.symm).2

theorem unbordered_arrow : Unbordered ['=', '>'] where
  ne_nil := List.cons_ne_nil _ _
  eq_nil_or := by
    intro x y z hx hz
    match x, hx with
    | [], _ => exact .inl rfl
    | [a], hx =>
      -- The first character does not come back at the end.
      rw [List.singleton_append, List.cons.injEq] at hx
      rw [← hx.2] at hz
      simp at hz
    | a :: b :: x, hx =>
      simp only [List.cons_append, List.cons.injEq] at hx
      exact .inr (List.append_eq_nil_iff.1 hx.2.2.symm).2

namespace Counter

variable (C : Counter)

/-- Counting from `d`, the word `w` is met in `s` where the count is zero. -/
def Meets (d : Int) (w s : List Char) : Prop :=
  ∃ a b, s = a ++ (w ++ b) ∧ d + C.level a = 0

/-- Counting from `d`, the text `s` is `l`, the word `w` and `r`, and nowhere before `l` ends is the
word met where the count is zero. -/
structure CutsAt (d : Int) (w s l r : List Char) : Prop where
  /-- The text is made of the two sides and the word. -/
  eq_append : s = l ++ (w ++ r)
  /-- The word is met where the count is zero. -/
  level_eq : d + C.level l = 0
  /-- No other such place comes earlier. -/
  least : ∀ a b, s = a ++ (w ++ b) → d + C.level a = 0 → l.length ≤ a.length

variable {C} {d : Int} {w s l r : List Char}

theorem CutsAt.unique {l' r' : List Char} (h : C.CutsAt d w s l r) (h' : C.CutsAt d w s l' r') :
    l = l' ∧ r = r' := by
  have hlen : l.length = l'.length :=
    Nat.le_antisymm (h.least l' r' h'.eq_append h'.level_eq) (h'.least l r h.eq_append h.level_eq)
  obtain ⟨hl, hr⟩ := List.append_inj (h.eq_append.symm.trans h'.eq_append) hlen
  exact ⟨hl, List.append_cancel_left hr⟩

theorem CutsAt.meets (h : C.CutsAt d w s l r) : C.Meets d w s :=
  ⟨l, r, h.eq_append, h.level_eq⟩

/-- A text is cut before its first character if the word is met there, and otherwise where the text
after that character is cut. -/
theorem cutsAt_cons_iff {c : Char} :
    C.CutsAt d w (c :: s) l r ↔
      if d = 0 ∧ w <+: c :: s then l = [] ∧ c :: s = w ++ r
      else ∃ l', l = c :: l' ∧ C.CutsAt (d + C.step c) w s l' r := by
  split
  · -- The word is met at once, so that nothing further on can be the first place.
    next h =>
    obtain ⟨h0, b, hb⟩ := h
    constructor
    · intro hcut
      have hle := hcut.least [] b (by rw [List.nil_append, hb]) (by rw [level_nil, h0]; rfl)
      obtain rfl := List.length_eq_zero_iff.1 (Nat.le_zero.1 hle)
      exact ⟨rfl, hcut.eq_append⟩
    · rintro ⟨rfl, heq⟩
      exact ⟨heq, by rw [level_nil, h0]; rfl, fun _ _ _ _ => Nat.zero_le _⟩
  · -- The word is not met yet, so that the character belongs to the left side.
    next h =>
    constructor
    · intro hcut
      cases l with
      | nil =>
        have h0 : d = 0 := by simpa using hcut.level_eq
        exact absurd ⟨h0, r, hcut.eq_append.symm⟩ h
      | cons x l =>
        have heq := hcut.eq_append
        have hlev := hcut.level_eq
        rw [List.cons_append, List.cons.injEq] at heq
        obtain ⟨rfl, heq⟩ := heq
        rw [level_cons, ← add_assoc] at hlev
        refine ⟨l, rfl, heq, hlev, ?_⟩
        intro a b hs ha
        have hle := hcut.least (c :: a) b (by rw [hs, List.cons_append])
          (by rw [level_cons, ← add_assoc, ha])
        simpa using hle
    · rintro ⟨l', rfl, hcut⟩
      refine ⟨by rw [hcut.eq_append, List.cons_append], ?_, ?_⟩
      · rw [level_cons, ← add_assoc, hcut.level_eq]
      · intro a b hs ha
        cases a with
        | nil =>
          have h0 : d = 0 := by simpa using ha
          exact absurd ⟨h0, b, hs.symm⟩ h
        | cons x a =>
          rw [List.cons_append, List.cons.injEq] at hs
          obtain ⟨rfl, hs⟩ := hs
          rw [level_cons, ← add_assoc] at ha
          simpa using hcut.least a b hs ha

theorem meets_cons_iff {c : Char} :
    C.Meets d w (c :: s) ↔ (d = 0 ∧ w <+: c :: s) ∨ C.Meets (d + C.step c) w s := by
  constructor
  · rintro ⟨a, b, hs, ha⟩
    cases a with
    | nil => exact .inl ⟨by simpa using ha, b, hs.symm⟩
    | cons x a =>
      rw [List.cons_append, List.cons.injEq] at hs
      obtain ⟨rfl, hs⟩ := hs
      rw [level_cons, ← add_assoc] at ha
      exact .inr ⟨a, b, hs, ha⟩
  · rintro (⟨h0, b, hb⟩ | ⟨a, b, rfl, ha⟩)
    · exact ⟨[], b, hb.symm, by rw [level_nil, h0]; rfl⟩
    · exact ⟨c :: a, b, rfl, by rw [level_cons, ← add_assoc, ha]⟩

theorem meets_singleton_cons_iff {x c : Char} :
    C.Meets d [x] (c :: s) ↔ (c = x ∧ d = 0) ∨ C.Meets (d + C.step c) [x] s := by
  rw [meets_cons_iff, List.singleton_prefix_cons_iff, eq_comm (a := x), and_comm (a := d = 0)]

theorem exists_cutsAt_iff (hw : w ≠ []) : (∃ l r, C.CutsAt d w s l r) ↔ C.Meets d w s := by
  refine ⟨fun ⟨_, _, h⟩ => h.meets, fun h => ?_⟩
  induction s generalizing d with
  | nil =>
    obtain ⟨a, b, hs, -⟩ := h
    simp [hw] at hs
  | cons c s ih =>
    by_cases h0 : d = 0 ∧ w <+: c :: s
    · obtain ⟨t, ht⟩ := h0.2
      exact ⟨[], t, cutsAt_cons_iff.2 (by rw [if_pos h0]; exact ⟨rfl, ht.symm⟩)⟩
    · obtain ⟨l, r, hcut⟩ := ih ((meets_cons_iff.1 h).resolve_left h0)
      exact ⟨c :: l, r, cutsAt_cons_iff.2 (by rw [if_neg h0]; exact ⟨l, rfl, hcut⟩)⟩

/-! ### Words met in parts of a text -/

theorem Meets.append_right (h : C.Meets d w s) (t : List Char) : C.Meets d w (s ++ t) := by
  obtain ⟨a, b, rfl, ha⟩ := h
  exact ⟨a, b ++ t, by simp, ha⟩

theorem Meets.append_left {p : List Char} (hp : WellNested p) (h : C.Meets d w s) :
    C.Meets d w (p ++ s) := by
  obtain ⟨a, b, rfl, ha⟩ := h
  exact ⟨p ++ a, b, by simp, by rw [level_append, C.level_of_wellNested hp, zero_add, ha]⟩

theorem Meets.of_trim (h : C.Meets d w (trim s)) : C.Meets d w s := by
  obtain ⟨a, b, hs, ha, -⟩ := exists_eq_append_trim s
  rw [hs]
  exact (h.append_right b).append_left (wellNested_of_isBlank ha)

theorem not_meets_nil (hw : w ≠ []) : ¬ C.Meets d w [] := by
  rintro ⟨a, b, hab, -⟩
  have hnil : w ++ b = [] := (List.append_eq_nil_iff.1 hab.symm).2
  exact hw (List.append_eq_nil_iff.1 hnil).1

theorem not_meets_of_not_mem {c : Char} (h : c ∉ s) : ¬ C.Meets d (c :: w) s := by
  rintro ⟨a, b, rfl, -⟩
  simp at h

/-- A word met in two texts, one after the other, is met in one of them, or else it begins in the
first text and ends in the second one. -/
theorem Meets.of_append {p q : List Char} (hp : WellNested p) (h : C.Meets d w (p ++ q)) :
    C.Meets d w p ∨ C.Meets d w q ∨
      ∃ x y, x ≠ [] ∧ y ≠ [] ∧ w = x ++ y ∧ x <:+ p ∧ y <+: q := by
  have hlevel : C.level p = 0 := C.level_of_wellNested hp
  obtain ⟨a, b, hab, ha⟩ := h
  -- The word begins in the second text, or else it begins in the first one and ends in either.
  rcases List.append_eq_append_iff.1 hab with ⟨x, rfl, rfl⟩ | ⟨x, rfl, hx⟩
  · rw [level_append, hlevel, zero_add] at ha
    exact .inr (.inl ⟨x, b, rfl, ha⟩)
  · rcases List.append_eq_append_iff.1 hx with ⟨y, rfl, rfl⟩ | ⟨y, rfl, rfl⟩
    · exact .inl ⟨a, y, rfl, ha⟩
    · by_cases hx0 : x = []
      · subst hx0
        rw [List.append_nil] at hlevel
        rw [hlevel] at ha
        exact .inr (.inl ⟨[], b, by simp, by simpa using ha⟩)
      · by_cases hy0 : y = []
        · subst hy0
          exact .inl ⟨a, [], by simp, ha⟩
        · exact .inr (.inr ⟨x, y, hx0, hy0, rfl, ⟨a, rfl⟩, ⟨b, rfl⟩⟩)

/-- A single character is met in two texts, one after the other, only if it is met in one of
them. -/
theorem not_meets_append {c : Char} {p q : List Char} (hp : WellNested p)
    (h1 : ¬ C.Meets d [c] p) (h2 : ¬ C.Meets d [c] q) : ¬ C.Meets d [c] (p ++ q) := by
  intro h
  rcases h.of_append hp with h | h | ⟨x, y, hx, hy, hxy, -, -⟩
  · exact h1 h
  · exact h2 h
  · have hlen := congrArg List.length hxy
    have hx1 := List.length_pos_of_ne_nil hx
    have hy1 := List.length_pos_of_ne_nil hy
    rw [List.length_append, List.length_singleton] at hlen
    omega

/-- An arrow is met in two texts, one after the other, only if it is met in one of them, unless its
first half ends the first text and its second half begins the second one. -/
theorem not_meets_arrow_append {p q : List Char} (hp : WellNested p)
    (h1 : ¬ C.Meets d ['=', '>'] p) (h2 : ¬ C.Meets d ['=', '>'] q)
    (hq : q.head? ≠ some '>') : ¬ C.Meets d ['=', '>'] (p ++ q) := by
  intro h
  rcases h.of_append hp with h | h | ⟨x, y, hx, hy, hxy, -, t, rfl⟩
  · exact h1 h
  · exact h2 h
  · match x, y, hx, hy, hxy with
    | [_], _ :: _, _, _, hxy =>
      simp only [List.singleton_append, List.cons.injEq] at hxy
      obtain ⟨-, rfl, -⟩ := hxy
      simp at hq
    | _ :: _ :: _, _ :: _, _, _, hxy => simp at hxy

/-- Inside a pair of brackets that counts, no word is met at level zero. -/
theorem not_meets_pair {o c x : Char} {m : List Char} (hm : WellNested m)
    (ho : 0 < C.step o) (hx : x ≠ o) : ¬ C.Meets 0 (x :: w) (o :: (m ++ [c])) := by
  rintro ⟨a, b, hab, ha⟩
  rcases append_eq_pair_cases hab.symm with rfl | ⟨a, m', rfl, rfl, -⟩ | ⟨a, -, ha'⟩
  · rw [List.nil_append, List.cons_append, List.cons.injEq] at hab
    exact hx hab.1.symm
  · -- Inside, the opening bracket has been counted and is not taken back.
    have h1 : 0 ≤ C.level a := C.level_nonneg hm
    rw [level_cons] at ha
    omega
  · simp at ha'

/-- A word that cannot overlap itself is cut at where it has not been met before. -/
theorem cutsAt_iff (hw : Unbordered w) :
    C.CutsAt d w s l r ↔ s = l ++ (w ++ r) ∧ d + C.level l = 0 ∧ ¬ C.Meets d w l := by
  constructor
  · intro h
    refine ⟨h.eq_append, h.level_eq, ?_⟩
    rintro ⟨a, b, rfl, ha⟩
    -- A place inside the left side would come before the first one.
    have hle := h.least a (b ++ (w ++ r)) (by rw [h.eq_append]; simp) ha
    have hpos := List.length_pos_of_ne_nil hw.ne_nil
    simp only [List.length_append] at hle
    omega
  · rintro ⟨rfl, hl, hmeet⟩
    refine ⟨rfl, hl, ?_⟩
    intro a b hab ha
    by_contra hlt
    rcases List.append_eq_append_iff.1 hab with ⟨x, rfl, -⟩ | ⟨x, rfl, hx⟩
    · simp at hlt
    · have hx0 : x ≠ [] := by rintro rfl; simp at hlt
      -- The word begins inside `l`; it cannot reach into the next one.
      rcases List.append_eq_append_iff.1 hx with ⟨y, rfl, -⟩ | ⟨y, hxy, hy⟩
      · exact hmeet ⟨a, y, rfl, ha⟩
      · rcases List.append_eq_append_iff.1 hy with ⟨z, rfl, -⟩ | ⟨z, hz, -⟩
        · have hlen := congrArg List.length hxy
          have hpos := List.length_pos_of_ne_nil hx0
          simp only [List.length_append] at hlen
          omega
        · rcases hw.eq_nil_or x y z hxy hz with h | rfl
          · exact hx0 h
          · rw [List.append_nil] at hxy
            exact hmeet ⟨a, [], by rw [hxy, List.append_nil], ha⟩

end Counter

/-! ### The scans that cut in two -/

/-- A scan that stops at the first place where a word is met at level zero cuts there. -/
theorem Counter.eq_some_iff_cutsAt {C : Counter} {w : List Char}
    {f : Int → List Char → Option (List Char × List Char)} (hw : w ≠ [])
    (hnil : ∀ d, f d [] = none)
    (hcons : ∀ d c s, f d (c :: s) =
      if d = 0 ∧ w <+: c :: s then some ([], (c :: s).drop w.length)
      else (f (d + C.step c) s).map fun p => (c :: p.1, p.2))
    {d : Int} {s l r : List Char} : f d s = some (l, r) ↔ C.CutsAt d w s l r := by
  induction s generalizing d l with
  | nil =>
    rw [hnil]
    refine ⟨fun h => by simp at h, fun h => ?_⟩
    have := h.eq_append
    simp [hw] at this
  | cons c s ih =>
    rw [hcons, cutsAt_cons_iff]
    split
    · next h =>
      obtain ⟨-, t, ht⟩ := h
      rw [← ht, List.drop_left, Option.some.injEq, Prod.mk.injEq, List.append_cancel_left_eq,
        eq_comm (a := [])]
    · simp only [Option.map_eq_some_iff, Prod.exists, Prod.mk.injEq]
      constructor
      · rintro ⟨l', r', hcut, rfl, rfl⟩
        exact ⟨l', rfl, ih.1 hcut⟩
      · rintro ⟨l', rfl, hcut⟩
        exact ⟨l', r, ih.2 hcut, rfl, rfl⟩

/-- The text has a comma outside brackets. -/
abbrev HasComma (s : List Char) : Prop := Counter.brackets.Meets 0 [','] s

/-- The text has an arrow outside brackets. -/
abbrev HasArrow (s : List Char) : Prop := Counter.brackets.Meets 0 ['=', '>'] s

/-- The text has a `[` outside parentheses. -/
abbrev HasOpening (s : List Char) : Prop := Counter.parens.Meets 0 ['['] s

theorem cutArrow_eq_some_iff {d : Int} {s l r : List Char} :
    cutArrow d s = some (l, r) ↔ Counter.brackets.CutsAt d ['=', '>'] s l r := by
  refine Counter.eq_some_iff_cutsAt (List.cons_ne_nil _ _) (fun _ => rfl) ?_
  intro d c s
  have hprefix : (c = '=' ∧ d = 0 ∧ s.head? = some '>') ↔ (d = 0 ∧ ['=', '>'] <+: c :: s) := by
    rw [List.cons_prefix_cons, List.singleton_prefix_iff_head?_eq_some, eq_comm (a := '=')]
    tauto
  rw [cutArrow, if_congr hprefix (by rfl) (by rfl)]
  rfl

theorem cutOpen_eq_some_iff {d : Int} {s l r : List Char} :
    cutOpen d s = some (l, r) ↔ Counter.parens.CutsAt d ['['] s l r := by
  refine Counter.eq_some_iff_cutsAt (List.cons_ne_nil _ _) (fun _ => rfl) ?_
  intro d c s
  have hprefix : (c = '[' ∧ d = 0) ↔ (d = 0 ∧ ['['] <+: c :: s) := by
    rw [List.singleton_prefix_cons_iff, eq_comm (a := '['), and_comm]
  rw [cutOpen, if_congr hprefix (by rfl) (by rfl)]
  rfl

/-! ### The scan for a closing bracket -/

theorem cutClose_append {m : List Char} (hm : WellNested m) (d : Nat) (t : List Char) :
    cutClose d (m ++ t) = (cutClose d t).map fun p => (m ++ p.1, p.2) := by
  induction hm generalizing d t with
  | nil => simp
  | @char c s ho hc _ ih =>
    rw [List.cons_append, cutClose]
    simp only [ho, hc, ih]
    simp [Option.map_map, Function.comp_def]
  | @pair o c s u hoc _ _ ihs ihu =>
    have ho := isOpening_of_closing? hoc
    have ho' : isClosing o = false := by rcases eq_of_closing? hoc with ⟨rfl, -⟩ | ⟨rfl, -⟩ <;> rfl
    have hc := isClosing_of_closing? hoc
    have hc' : isOpening c = false := by rcases eq_of_closing? hoc with ⟨-, rfl⟩ | ⟨-, rfl⟩ <;> rfl
    -- The scan is one level deeper between the two brackets of the pair.
    rw [List.append_assoc, List.cons_append, cutClose]
    simp only [ho, ho', ihs, List.cons_append, cutClose, hc, hc']
    simp [ihu, Option.map_map, Function.comp_def]

/-- Behind an opening bracket, the scan finds the bracket that closes it. -/
theorem cutClose_append_cons {m : List Char} (hm : WellNested m) {c : Char}
    (hc : isClosing c = true) (w : List Char) : cutClose 0 (m ++ c :: w) = some (m, w) := by
  rw [cutClose_append hm, cutClose, if_pos ⟨hc, rfl⟩]
  simp

/-- A properly nested text is read as one in parentheses just when it is one. -/
theorem parenthesized?_eq_some_iff {s m : List Char} (hs : WellNested s) :
    parenthesized? s = some m ↔ s = '(' :: (m ++ [')']) ∧ WellNested m := by
  constructor
  · intro h
    unfold parenthesized? at h
    split at h
    · next s =>
      obtain ⟨m', w, rfl, hm', -⟩ := WellNested.exists_of_cons (o := '(') rfl hs
      rw [cutClose_append_cons hm' rfl] at h
      split at h
      · next inner heq =>
        obtain ⟨rfl, rfl⟩ := by simpa using heq
        obtain rfl := by simpa using h
        exact ⟨rfl, hm'⟩
      · simp at h
    · simp at h
  · rintro ⟨rfl, hm⟩
    rw [parenthesized?, cutClose_append_cons hm rfl]

/-! ### The cut at commas -/

theorem segments_ne_nil (d : Int) (s : List Char) : segments d s ≠ [] := by
  cases s with
  | nil => exact List.cons_ne_nil _ _
  | cons c s =>
    rw [segments]
    split
    · exact List.cons_ne_nil _ _
    · split <;> exact List.cons_ne_nil _ _

theorem segments_cons {d : Int} {c : Char} {s first : List Char} {rest : List (List Char)}
    (hc : ¬ (c = ',' ∧ d = 0)) (h : segments (d + depthStep c) s = first :: rest) :
    segments d (c :: s) = (c :: first) :: rest := by
  rw [segments, if_neg hc, h]

theorem segments_of_not_meets {d : Int} {s : List Char}
    (h : ¬ Counter.brackets.Meets d [','] s) : segments d s = [s] := by
  induction s generalizing d with
  | nil => rfl
  | cons c s ih =>
    rw [Counter.meets_singleton_cons_iff, not_or] at h
    exact segments_cons h.1 (ih h.2)

/-- The first part ends before the first comma at level zero. -/
theorem segments_append_comma {d : Int} {p s : List Char}
    (h : ¬ Counter.brackets.Meets d [','] p) (h0 : d + depth p = 0) :
    segments d (p ++ ',' :: s) = p :: segments 0 s := by
  induction p generalizing d with
  | nil =>
    have hd : d = 0 := by simpa [depth] using h0
    rw [List.nil_append, segments, if_pos ⟨rfl, hd⟩, hd]
  | cons c p ih =>
    rw [Counter.meets_singleton_cons_iff, not_or] at h
    rw [← Counter.brackets_level, Counter.level_cons, ← add_assoc] at h0
    exact segments_cons h.1 (ih h.2 h0)

/-- Parts without commas of their own are found again after they have been joined with commas. -/
theorem segments_intercalate {ps : List (List Char)} (hne : ps ≠ [])
    (h : ∀ p ∈ ps, depth p = 0 ∧ ¬ HasComma p) : segments 0 ([','].intercalate ps) = ps := by
  induction ps with
  | nil => exact absurd rfl hne
  | cons p ps ih =>
    obtain ⟨h0, hp⟩ := h p List.mem_cons_self
    cases ps with
    | nil => rw [List.intercalate_singleton, segments_of_not_meets hp]
    | cons q ps =>
      rw [List.intercalate_cons_cons, List.append_assoc, List.singleton_append,
        segments_append_comma hp (by rw [h0]; rfl),
        ih (List.cons_ne_nil _ _) fun x hx => h x (List.mem_cons_of_mem _ hx)]

theorem intercalate_segments (d : Int) (s : List Char) :
    [','].intercalate (segments d s) = s := by
  induction s generalizing d with
  | nil => rfl
  | cons c s ih =>
    by_cases hc : c = ',' ∧ d = 0
    · -- A comma that separates stands between the two parts again.
      rw [segments, if_pos hc, List.intercalate_cons_of_ne_nil (segments_ne_nil d s), ih, hc.1]
      rfl
    · obtain ⟨first, rest, hfr⟩ := List.exists_cons_of_ne_nil (segments_ne_nil (d + depthStep c) s)
      have hjoin := ih (d + depthStep c)
      rw [hfr] at hjoin
      rw [segments_cons hc hfr, List.intercalate_cons_cons_left, hjoin]

/-- The blank behind a comma may be taken for the first character of what follows. -/
theorem intercalate_comma_blank (p : List Char) (ps : List (List Char)) :
    ", ".toList.intercalate (p :: ps) = [','].intercalate (p :: ps.map (' ' :: ·)) := by
  induction ps generalizing p with
  | nil => rw [List.map_nil, List.intercalate_singleton, List.intercalate_singleton]
  | cons q ps ih =>
    rw [List.intercalate_cons_cons, ih, List.map_cons, List.intercalate_cons_cons,
      List.intercalate_cons_cons_left]
    simp

theorem hasComma_blank_cons_iff {s : List Char} : HasComma (' ' :: s) ↔ HasComma s := by
  rw [HasComma, Counter.meets_singleton_cons_iff,
    Counter.step_of_isPlain _ (by decide : IsPlain ' '), add_zero]
  simp

/-- A list is not blank where it is written out, unless it has a single element that is blank. -/
theorem isBlank_intercalate_eq_false {ps : List (List Char)} (hne : ps ≠ [])
    (h : ∀ p, ps = [p] → isBlank p = false) : isBlank (", ".toList.intercalate ps) = false := by
  match ps, hne with
  | [p], _ =>
    rw [List.intercalate_singleton]
    exact h p rfl
  | p :: q :: ps, _ =>
    -- The comma behind the first element is not blank.
    refine isBlank_eq_false_of_mem (c := ',') ?_ (by decide)
    rw [List.intercalate_cons_cons]
    simp

/-- The parts of a properly nested text are properly nested and have no comma outside brackets. -/
theorem wellNested_of_mem_segments {s p : List Char} (hs : WellNested s)
    (hp : p ∈ segments 0 s) : WellNested p ∧ ¬ HasComma p := by
  -- By induction on the length: a text with a comma is cut at the first one.
  induction hn : s.length using Nat.strong_induction_on generalizing s with
  | _ n ih =>
    by_cases hcomma : HasComma s
    · obtain ⟨l, r, hcut⟩ := (Counter.exists_cutsAt_iff (List.cons_ne_nil _ _)).2 hcomma
      obtain ⟨rfl, hl, hfirst⟩ := (Counter.cutsAt_iff (unbordered_singleton ',')).1 hcut
      rw [zero_add] at hl
      have hwl : WellNested l := wellNested_of_depth hs hl
      have hwr : WellNested r := by
        rwa [wellNested_append_iff hwl, List.singleton_append,
          wellNested_cons_iff (by decide)] at hs
      rw [List.singleton_append, segments_append_comma hfirst (by rw [zero_add]; exact hl),
        List.mem_cons] at hp
      rcases hp with rfl | hp
      · exact ⟨hwl, hfirst⟩
      · refine ih r.length ?_ hwr hp rfl
        rw [← hn]
        simp only [List.length_append, List.length_singleton]
        omega
    · rw [segments_of_not_meets hcomma, List.mem_singleton] at hp
      exact ⟨hp ▸ hs, hp ▸ hcomma⟩

end ClassDiagram.TypeExpr
