/-!
# UTF-8

`chunks` reads bytes as UTF-8: one item for each character, and one `none` for each longest run
of bytes that begins a character and cannot be completed.  A text is well formed when no item is
`none` (`decode?`); a lenient reading puts the replacement character in their place
(`decodeLenient`).
-/

namespace ClassDiagram.Text.Utf8

/-! ### The octets of one character -/

/-- What the first octet of a character calls for: its own bits, how many octets follow, and the
bounds of the second octet. -/
structure Lead where
  /-- The bits of the code point held by the first octet. -/
  bits : Nat
  /-- The number of octets that follow. -/
  following : Nat
  /-- The least second octet. -/
  low : UInt8
  /-- The greatest second octet. -/
  high : UInt8

/-- The reading of a first octet, `none` if no character begins with it.  The bounds of the
second octet leave out overlong forms, surrogates and numbers above U+10FFFF. -/
def Lead.ofByte? (b : UInt8) : Option Lead :=
  if b < 0x80 then some ⟨b.toNat, 0, 0x80, 0xBF⟩
  else if b < 0xC2 then none
  else if b < 0xE0 then some ⟨b.toNat - 0xC0, 1, 0x80, 0xBF⟩
  else if b < 0xF0 then
    some ⟨b.toNat - 0xE0, 2, if b = 0xE0 then 0xA0 else 0x80, if b = 0xED then 0x9F else 0xBF⟩
  else if b < 0xF5 then
    some ⟨b.toNat - 0xF0, 3, if b = 0xF0 then 0x90 else 0x80, if b = 0xF4 then 0x8F else 0xBF⟩
  else none

/-- Reads `n` more octets of the character whose bits so far are `bits`, the first of them
between `low` and `high`, and gives the character, or `none` if an octet does not fit, with the
bytes after what was read. -/
def continued (bits : Nat) : Nat → UInt8 → UInt8 → List UInt8 → Option Char × List UInt8
  | 0, _, _, s => (some (Char.ofNat bits), s)
  | _ + 1, _, _, [] => (none, [])
  | n + 1, low, high, b :: s =>
    if low ≤ b && b ≤ high then continued (bits * 64 + (b.toNat - 0x80)) n 0x80 0xBF s
    else (none, b :: s)

/-- The character at the head of the bytes `b :: s`, or `none`, and the bytes after it. -/
def next (b : UInt8) (s : List UInt8) : Option Char × List UInt8 :=
  match Lead.ofByte? b with
  | some lead => continued lead.bits lead.following lead.low lead.high s
  | none => (none, s)

theorem length_continued_le (bits n : Nat) (low high : UInt8) (s : List UInt8) :
    (continued bits n low high s).2.length ≤ s.length := by
  fun_induction continued bits n low high s with
  | case1 => simp
  | case2 => simp
  | case3 _ _ _ _ _ _ _ ih => exact Nat.le_succ_of_le ih
  | case4 => simp

theorem length_next_le (b : UInt8) (s : List UInt8) : (next b s).2.length ≤ s.length := by
  unfold next
  split
  · exact length_continued_le _ _ _ _ _
  · exact Nat.le_refl _

/-! ### Whole texts -/

/-- The characters of a byte sequence, `none` for each run of bytes that makes no character. -/
def chunks : List UInt8 → List (Option Char)
  | [] => []
  | b :: s => (next b s).1 :: chunks (next b s).2
termination_by s => s.length
decreasing_by exact Nat.lt_succ_of_le (length_next_le b s)

/-- The characters of a well formed byte sequence. -/
def decode? (s : List UInt8) : Option (List Char) :=
  (chunks s).mapM id

/-- The characters of a byte sequence, with U+FFFD for each run of bytes that makes none. -/
def decodeLenient (s : List UInt8) : List Char :=
  (chunks s).map fun c => c.getD (Char.ofNat 0xFFFD)

end ClassDiagram.Text.Utf8
