import ClassDiagram.Number.Integer
import ClassDiagram.Proofs.Text.Trim

/-!
# Integers that are written and read

Digits are read as the number that they denote, `Nat.ofDigitChars` (`natOfDigits?_eq`), so that a
number is read back from its own digits.  These are neither signs nor white space, and hence the
texts of 64-bit integers are read back, their bounds included, with or without being trimmed
(`int64?_toString`, `word64?_toString`).
-/

namespace ClassDiagram.Number

open Text

/-! ### Digits -/

theorem digit?_of_isDigit {c : Char} (h : c.isDigit = true) :
    digit? c = some (c.toNat - '0'.toNat) := by
  have hrange : ('0' ≤ c && c ≤ '9') = true := by
    simpa [Char.isDigit, Char.le_def] using h
  rw [digit?, if_pos hrange]

theorem natOfDigitsFrom?_eq {cs : List Char} (h : ∀ c ∈ cs, c.isDigit = true) (n : Nat) :
    natOfDigitsFrom? n cs = some (Nat.ofDigitChars 10 cs n) := by
  induction cs generalizing n with
  | nil => rw [natOfDigitsFrom?, Nat.ofDigitChars_nil]
  | cons c cs ih =>
    rw [natOfDigitsFrom?, digit?_of_isDigit (h c List.mem_cons_self), Option.bind_some,
      ih fun d hd => h d (List.mem_cons_of_mem _ hd), Nat.ofDigitChars_cons]

theorem natOfDigits?_eq {cs : List Char} (hne : cs ≠ []) (h : ∀ c ∈ cs, c.isDigit = true) :
    natOfDigits? cs = some (Nat.ofDigitChars 10 cs 0) := by
  obtain ⟨c, cs, rfl⟩ := List.exists_cons_of_ne_nil hne
  rw [natOfDigits?, natOfDigitsFrom?_eq h]

theorem isDigit_of_mem_repr {n : Nat} {c : Char} (h : c ∈ n.repr.toList) : c.isDigit = true := by
  rw [Nat.toList_repr] at h
  exact Nat.isDigit_of_mem_toDigits (by decide) (by decide) h

/-- A number is read back from its digits. -/
theorem natOfDigits?_repr (n : Nat) : natOfDigits? n.repr.toList = some n := by
  rw [natOfDigits?_eq (by simp) fun c hc => isDigit_of_mem_repr hc, Nat.toList_repr,
    Nat.ofDigitChars_ten_toDigits]

/-! ### Signs -/

/-- No digit is a sign. -/
theorem exists_repr_eq_cons (n : Nat) :
    ∃ c cs, n.repr.toList = c :: cs ∧ c.isDigit = true ∧ c ≠ '-' ∧ c ≠ '+' := by
  obtain ⟨c, cs, hcs⟩ := List.exists_cons_of_ne_nil (show n.repr.toList ≠ [] by simp)
  have hdigit : c.isDigit = true := isDigit_of_mem_repr (n := n) (by rw [hcs]; simp)
  refine ⟨c, cs, hcs, hdigit, ?_, ?_⟩
  · rintro rfl
    exact absurd hdigit (by decide)
  · rintro rfl
    exact absurd hdigit (by decide)

theorem splitSign_repr (n : Nat) : splitSign n.repr.toList = (false, n.repr.toList) := by
  obtain ⟨c, cs, hcs, -, hminus, hplus⟩ := exists_repr_eq_cons n
  rw [hcs]
  unfold splitSign
  split
  · next h => exact absurd (List.cons.inj h).1 hminus
  · next h => exact absurd (List.cons.inj h).1 hplus
  · rfl

theorem int64?_repr {n : Nat} (h : n < Nat.pow 2 63) :
    int64? n.repr.toList = some (Int64.ofNat n) := by
  rw [int64?, splitSign_repr]
  dsimp only
  rw [natOfDigits?_repr]
  dsimp only
  rw [if_neg Bool.false_ne_true, if_pos h]

theorem int64?_minus_repr {n : Nat} (h : n ≤ Nat.pow 2 63) :
    int64? ('-' :: n.repr.toList) = some (Int64.ofInt (-n)) := by
  rw [int64?, splitSign]
  dsimp only
  rw [natOfDigits?_repr]
  dsimp only
  rw [if_pos rfl, if_pos h]

theorem word64?_repr {n : Nat} (h : n < Nat.pow 2 64) :
    word64? n.repr.toList = some (UInt64.ofNat n) := by
  obtain ⟨c, cs, hcs, -, -, hplus⟩ := exists_repr_eq_cons n
  have hvalue := natOfDigits?_repr n
  rw [hcs] at hvalue ⊢
  -- The alternative of a leading plus is ruled out by this.
  have hsign : ∀ ds, c :: cs = '+' :: ds → False := fun ds h => hplus (List.cons.inj h).1
  unfold word64?
  simp only [hvalue, if_pos h]

/-! ### Texts of integers -/

/-- A signed integer is read back from its text. -/
theorem int64?_toString (i : Int64) : int64? (toString i.toInt).toList = some i := by
  have hlower := i.le_toInt
  have hupper := i.toInt_lt
  have hbound : Nat.pow 2 63 = 9223372036854775808 := rfl
  rw [Int.toString_eq_repr, Int.repr_eq_if]
  split
  · next hnonneg =>
    have hcast : (i.toInt.toNat : Int) = i.toInt := Int.toNat_of_nonneg hnonneg
    rw [int64?_repr (by omega), ← Int64.ofInt_eq_ofNat, hcast, Int64.ofInt_toInt]
  · next hneg =>
    have hcast : -((-i.toInt).toNat : Int) = i.toInt := by omega
    have htext : ("-" ++ (-i.toInt).toNat.repr).toList = '-' :: (-i.toInt).toNat.repr.toList := by
      simp
    rw [htext, int64?_minus_repr (by omega), hcast, Int64.ofInt_toInt]

/-- An unsigned integer is read back from its text. -/
theorem word64?_toString (w : UInt64) : word64? (toString w.toNat).toList = some w := by
  rw [Nat.toString_eq_repr, word64?_repr w.toNat_lt, UInt64.ofNat_toNat]

/-! ### White space -/

theorem isSpace_eq_false_of_isDigit {c : Char} (h : c.isDigit = true) : isSpace c = false := by
  have hrange : 48 ≤ c.toNat ∧ c.toNat ≤ 57 := by
    simpa [Char.isDigit, UInt32.le_iff_toNat_le] using h
  simp only [isSpace, Bool.or_eq_false_iff, Bool.and_eq_false_iff, decide_eq_false_iff_not,
    beq_eq_false_iff_ne]
  omega

theorem trim_repr (n : Nat) : trim n.repr.toList = n.repr.toList :=
  trim_eq_self_of_forall fun _ hc => isSpace_eq_false_of_isDigit (isDigit_of_mem_repr hc)

/-- The text of an integer is its own trim. -/
theorem trim_toString_int (i : Int) : trim (toString i).toList = (toString i).toList := by
  rw [Int.toString_eq_repr, Int.repr_eq_if]
  split
  · exact trim_repr _
  · refine trim_eq_self_of_forall fun c hc => ?_
    rw [String.toList_append, List.mem_append] at hc
    rcases hc with hc | hc
    · obtain rfl : c = '-' := by simpa using hc
      rfl
    · exact isSpace_eq_false_of_isDigit (isDigit_of_mem_repr hc)

end ClassDiagram.Number
