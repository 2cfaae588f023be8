/-!
# White space

The white space that surrounds names, types and numbers on a diagram is the Unicode property
`White_Space`.  `trim` removes it on both sides of a text, and a text is blank when it has nothing
else.

Functions on a `List Char` carry the rule; those on a `String` apply it to the characters of the
string.
-/

namespace ClassDiagram.Text

/-! ### The property -/

/-- The characters with the Unicode property `White_Space`. -/
def isSpace (c : Char) : Bool :=
  let n := c.toNat
  (0x09 ≤ n && n ≤ 0x0D) || n == 0x20 || n == 0x85 || n == 0xA0 || n == 0x1680 ||
    (0x2000 ≤ n && n ≤ 0x200A) || n == 0x2028 || n == 0x2029 || n == 0x202F || n == 0x205F ||
    n == 0x3000

/-! ### Trimming -/

/-- The list without the longest run of elements satisfying `p` at its end.  This is
`List.rdropWhile` of Mathlib, which the modules that are run do without. -/
def dropEndWhile {α : Type} (p : α → Bool) (s : List α) : List α :=
  (s.reverse.dropWhile p).reverse

/-- The text without the white space at either end. -/
def trim (s : List Char) : List Char :=
  dropEndWhile isSpace (s.dropWhile isSpace)

/-- A text without any character but white space. -/
def isBlank (s : List Char) : Bool :=
  s.all isSpace

/-- The string without the white space at either end. -/
def trimmed (s : String) : String :=
  String.ofList (trim s.toList)

/-- A string without any character but white space. -/
def blank (s : String) : Bool :=
  isBlank s.toList

/-! ### Laws -/

theorem trim_sublist (s : List Char) : (trim s).Sublist s := by
  have h := (List.dropWhile_sublist (l := (s.dropWhile isSpace).reverse) isSpace).reverse
  rw [List.reverse_reverse] at h
  exact h.trans (List.dropWhile_sublist isSpace)

/-- Trimming never makes a text longer. -/
theorem length_trim_le (s : List Char) : (trim s).length ≤ s.length :=
  (trim_sublist s).length_le

@[simp] theorem toList_trimmed (s : String) : (trimmed s).toList = trim s.toList := by
  simp [trimmed]

end ClassDiagram.Text
