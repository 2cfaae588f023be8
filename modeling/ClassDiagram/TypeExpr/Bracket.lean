import ClassDiagram.Text.Blank

/-!
# Brackets

Type expressions nest through two kinds of brackets, `[ ]` and `( )`.  `WellNested` says that the
brackets of a text pair up; `isNested` decides it (`isNested_iff`).  The other scans count a depth
that either kind of opening bracket raises and either kind of closing bracket lowers, and look for
something at depth zero: commas (`segments`, `chop`), an arrow (`cutArrow`), or the bracket that
closes the first one (`cutClose`).  `cutOpen` looks for a `[` outside parentheses and pays no heed
to other brackets of its kind.

The depths counted here have no bound.  Depths counted in 32 bits are the same on every text with
fewer than 2^31 brackets, and may overflow on longer ones.
-/

namespace ClassDiagram.TypeExpr

open ClassDiagram.Text

/-! ### Pairing -/

/-- The bracket that closes an opening bracket. -/
def closing? (c : Char) : Option Char :=
  if c = '[' then some ']' else if c = '(' then some ')' else none

/-- An opening bracket of either kind. -/
def isOpening (c : Char) : Bool := c = '[' || c = '('

/-- A closing bracket of either kind. -/
def isClosing (c : Char) : Bool := c = ']' || c = ')'

/-- The brackets of `s` pair up when those in `pending` are yet to come, the innermost
first. -/
def isNestedWith (pending : List Char) : List Char → Bool
  | [] => pending.isEmpty
  | c :: s =>
    match closing? c with
    | some close => isNestedWith (close :: pending) s
    | none =>
      if isClosing c then pending.head? == some c && isNestedWith pending.tail s
      else isNestedWith pending s

/-- The brackets of a text pair up. -/
def isNested (s : List Char) : Bool := isNestedWith [] s

/-- The texts whose brackets form a properly nested word. -/
inductive WellNested : List Char → Prop where
  /-- The text without characters. -/
  | nil : WellNested []
  /-- A character that is no bracket, before a properly nested text. -/
  | char {c : Char} {s : List Char} :
      isOpening c = false → isClosing c = false → WellNested s → WellNested (c :: s)
  /-- A pair of brackets around a properly nested text, before another one. -/
  | pair {o c : Char} {s t : List Char} :
      closing? o = some c → WellNested s → WellNested t → WellNested (o :: s ++ c :: t)

/-! ### Depth -/

/-- How a character changes the depth. -/
def depthStep (c : Char) : Int :=
  if isOpening c then 1 else if isClosing c then -1 else 0

/-- The number of opening brackets in a text less that of the closing ones. -/
def depth (s : List Char) : Int :=
  (s.map depthStep).foldr (· + ·) 0

/-- The parts of `s` between the commas at depth zero, when it begins at depth `d`. -/
def segments (d : Int) : List Char → List (List Char)
  | [] => [[]]
  | c :: s =>
    if c = ',' ∧ d = 0 then [] :: segments d s
    else match segments (d + depthStep c) s with
      | [] => [[c]]
      | first :: rest => (c :: first) :: rest

/-- The trimmed parts of a list separated by commas at depth zero; a blank text has none. -/
def chop (s : List Char) : List (List Char) :=
  if isBlank s then [] else (segments 0 s).map trim

/-- What stands before and after the first `=>` at depth zero, when `s` begins at depth `d`. -/
def cutArrow (d : Int) : List Char → Option (List Char × List Char)
  | [] => none
  | c :: s =>
    if c = '=' ∧ d = 0 ∧ s.head? = some '>' then some ([], s.drop 1)
    else (cutArrow (d + depthStep c) s).map fun (before, after) => (c :: before, after)

/-- The number of bytes before the first `=>` at depth zero, in UTF-8. -/
def arrowOffset? (s : List Char) : Option Nat :=
  (cutArrow 0 s).map fun (before, _) => (before.map Char.utf8Size).foldr (· + ·) 0

/-- What stands before and after the first `[` outside parentheses, when `s` begins inside
`parens` of them. -/
def cutOpen (parens : Int) : List Char → Option (List Char × List Char)
  | [] => none
  | c :: s =>
    if c = '[' ∧ parens = 0 then some ([], s)
    else
      let change : Int := if c = '(' then 1 else if c = ')' then -1 else 0
      (cutOpen (parens + change) s).map fun (before, after) => (c :: before, after)

/-- What stands before and after the bracket that closes the outermost of `d + 1` open ones. -/
def cutClose (d : Nat) : List Char → Option (List Char × List Char)
  | [] => none
  | c :: s =>
    if isClosing c ∧ d = 0 then some ([], s)
    else
      let d := if isOpening c then d + 1 else if isClosing c then d - 1 else d
      (cutClose d s).map fun (before, after) => (c :: before, after)

/-- What stands in a text between a `(` at its beginning and the bracket closing it at its end. -/
def parenthesized? : List Char → Option (List Char)
  | '(' :: s =>
    match cutClose 0 s with
    | some (inner, []) => some inner
    | _ => none
  | _ => none

/-! ### Pairing, decided -/

theorem isClosing_of_closing? {o c : Char} (h : closing? o = some c) : isClosing c = true := by
  unfold closing? at h
  split at h
  · obtain rfl := by simpa using h
    rfl
  · split at h
    · obtain rfl := by simpa using h
      rfl
    · simp at h

theorem closing?_eq_none_iff {c : Char} : closing? c = none ↔ isOpening c = false := by
  unfold closing? isOpening
  by_cases h1 : c = '['
  · simp [h1]
  · by_cases h2 : c = '('
    · simp [h2]
    · simp [h1, h2]

theorem closing?_of_isClosing {c : Char} (h : isClosing c = true) : closing? c = none := by
  simp only [isClosing, Bool.or_eq_true, decide_eq_true_eq] at h
  rcases h with rfl | rfl <;> rfl

/-- A properly nested text leaves the brackets that are yet to come as they are. -/
theorem isNestedWith_append {s : List Char} (hs : WellNested s) (pending t : List Char) :
    isNestedWith pending (s ++ t) = isNestedWith pending t := by
  induction hs generalizing pending t with
  | nil => rfl
  | @char c s ho hc _ ih =>
    rw [List.cons_append, isNestedWith, closing?_eq_none_iff.2 ho]
    simp [hc, ih]
  | @pair o c s u hoc _ _ ihs ihu =>
    rw [List.append_assoc, List.cons_append, isNestedWith, hoc]
    dsimp only
    rw [ihs, List.cons_append, isNestedWith, closing?_of_isClosing (isClosing_of_closing? hoc)]
    simp [isClosing_of_closing? hoc, ihu]

/-- A text that closes a pending bracket does so after a properly nested one. -/
theorem exists_wellNested_of_isNestedWith_cons (n : Nat) {p : Char} {pending s : List Char}
    (hn : s.length ≤ n) (h : isNestedWith (p :: pending) s = true) :
    ∃ t u, s = t ++ p :: u ∧ WellNested t ∧ isNestedWith pending u = true := by
  induction n generalizing p pending s with
  | zero =>
    obtain rfl := List.length_eq_zero_iff.1 (Nat.le_zero.1 hn)
    simp [isNestedWith] at h
  | succ n ih =>
    cases s with
    | nil => simp [isNestedWith] at h
    | cons c s =>
      rw [List.length_cons] at hn
      rw [isNestedWith] at h
      split at h
      · next close hc =>
        obtain ⟨t, u, rfl, ht, hu⟩ := ih (by omega) h
        have hlen : u.length ≤ n := by
          simp only [List.length_append, List.length_cons] at hn
          omega
        obtain ⟨v, w, rfl, hv, hw⟩ := ih hlen hu
        exact ⟨c :: t ++ close :: v, w, by simp, .pair hc ht hv, hw⟩
      · next hc =>
        split at h
        · simp only [List.head?_cons, List.tail_cons, Bool.and_eq_true, beq_iff_eq,
            Option.some.injEq] at h
          obtain ⟨rfl, h⟩ := h
          exact ⟨[], s, rfl, .nil, h⟩
        · next hcl =>
          obtain ⟨t, u, rfl, ht, hu⟩ := ih (by omega) h
          exact ⟨c :: t, u, rfl, .char (closing?_eq_none_iff.1 hc) (by simpa using hcl) ht, hu⟩

theorem wellNested_of_isNestedWith_nil (n : Nat) {s : List Char} (hn : s.length ≤ n)
    (h : isNestedWith [] s = true) : WellNested s := by
  induction n generalizing s with
  | zero =>
    obtain rfl := List.length_eq_zero_iff.1 (Nat.le_zero.1 hn)
    exact .nil
  | succ n ih =>
    cases s with
    | nil => exact .nil
    | cons c s =>
      rw [List.length_cons] at hn
      rw [isNestedWith] at h
      split at h
      · next close hc =>
        obtain ⟨t, u, rfl, ht, hu⟩ :=
          exists_wellNested_of_isNestedWith_cons n (by omega) h
        have hlen : u.length ≤ n := by
          simp only [List.length_append, List.length_cons] at hn
          omega
        exact .pair hc ht (ih hlen hu)
      · next hc =>
        split at h
        · simp at h
        · next hcl =>
          exact .char (closing?_eq_none_iff.1 hc) (by simpa using hcl) (ih (by omega) h)

/-- The brackets of a text pair up just when they form a properly nested word. -/
theorem isNested_iff {s : List Char} : isNested s = true ↔ WellNested s := by
  constructor
  · exact wellNested_of_isNestedWith_nil s.length (Nat.le_refl _)
  · intro h
    have := isNestedWith_append h [] []
    rw [List.append_nil] at this
    exact this

/-! ### Cuts -/

/-- Around an arrow stand the two sides of it. -/
theorem cutArrow_eq_append {d : Int} {s before after : List Char}
    (h : cutArrow d s = some (before, after)) : s = before ++ '=' :: '>' :: after := by
  induction s generalizing d before with
  | nil => simp [cutArrow] at h
  | cons c s ih =>
    rw [cutArrow] at h
    split at h
    · next hc =>
      obtain ⟨rfl, -, hs⟩ := hc
      obtain ⟨rfl, rfl⟩ := by simpa using h
      cases s with
      | nil => simp at hs
      | cons a s => simp_all
    · simp only [Option.map_eq_some_iff, Prod.mk.injEq, Prod.exists] at h
      obtain ⟨b, a, hb, rfl, rfl⟩ := h
      rw [ih hb, List.cons_append]

/-- Around an opening bracket outside parentheses stand the texts before and after it. -/
theorem cutOpen_eq_append {parens : Int} {s before after : List Char}
    (h : cutOpen parens s = some (before, after)) : s = before ++ '[' :: after := by
  induction s generalizing parens before with
  | nil => simp [cutOpen] at h
  | cons c s ih =>
    rw [cutOpen] at h
    split at h
    · next hc =>
      obtain ⟨rfl, rfl⟩ := by simpa using h
      rw [hc.1, List.nil_append]
    · simp only [Option.map_eq_some_iff, Prod.mk.injEq, Prod.exists] at h
      obtain ⟨b, a, hb, rfl, rfl⟩ := h
      rw [ih hb, List.cons_append]

/-- Around a closing bracket stand the texts before and after it. -/
theorem cutClose_eq_append {d : Nat} {s before after : List Char}
    (h : cutClose d s = some (before, after)) :
    ∃ c, isClosing c = true ∧ s = before ++ c :: after := by
  induction s generalizing d before with
  | nil => simp [cutClose] at h
  | cons c s ih =>
    rw [cutClose] at h
    split at h
    · next hc =>
      obtain ⟨rfl, rfl⟩ := by simpa using h
      exact ⟨c, hc.1, rfl⟩
    · simp only [Option.map_eq_some_iff, Prod.mk.injEq, Prod.exists] at h
      obtain ⟨b, a, hb, rfl, rfl⟩ := h
      obtain ⟨e, he, rfl⟩ := ih hb
      exact ⟨e, he, rfl⟩

/-- A text in parentheses is its content between them. -/
theorem eq_of_parenthesized?_eq_some {s inner : List Char} (h : parenthesized? s = some inner) :
    ∃ c, isClosing c = true ∧ s = '(' :: inner ++ [c] := by
  unfold parenthesized? at h
  split at h
  · next s =>
    split at h
    · next i hi =>
      obtain rfl := by simpa using h
      obtain ⟨c, hc, rfl⟩ := cutClose_eq_append hi
      exact ⟨c, hc, rfl⟩
    · simp at h
  · simp at h

/-- No part between commas is longer than the whole. -/
theorem length_le_of_mem_segments {d : Int} {s piece : List Char} (h : piece ∈ segments d s) :
    piece.length ≤ s.length := by
  induction s generalizing d piece with
  | nil => simp_all [segments]
  | cons c s ih =>
    rw [segments] at h
    split at h
    · cases h with
      | head => simp
      | tail _ h => exact Nat.le_succ_of_le (ih h)
    · split at h
      · simp_all
      · next first rest heq =>
        cases h with
        | head =>
          have := ih (heq ▸ List.mem_cons_self : first ∈ segments (d + depthStep c) s)
          simpa using this
        | tail _ h => exact Nat.le_succ_of_le (ih (heq ▸ List.mem_cons_of_mem _ h))

/-- No piece of a list is longer than the list. -/
theorem length_le_of_mem_chop {s piece : List Char} (h : piece ∈ chop s) :
    piece.length ≤ s.length := by
  unfold chop at h
  split at h
  · simp at h
  · obtain ⟨part, hp, rfl⟩ := List.mem_map.1 h
    exact Nat.le_trans (length_trim_le part) (length_le_of_mem_segments hp)

end ClassDiagram.TypeExpr
