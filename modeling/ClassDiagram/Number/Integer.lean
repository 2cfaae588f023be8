/-!
# Integers in decimal notation

Handles and enumeration codes are written in decimal digits.  `natOfDigits?` reads digits of any
length; `int64?` and `word64?` allow a sign and refuse what does not fit into 64 bits.
-/

namespace ClassDiagram.Number

/-- The value of an ASCII decimal digit. -/
def digit? (c : Char) : Option Nat :=
  if '0' ≤ c && c ≤ '9' then some (c.toNat - '0'.toNat) else none

/-- The number written by `cs` after the digits of `n`, `none` if one is not a digit. -/
def natOfDigitsFrom? (n : Nat) : List Char → Option Nat
  | [] => some n
  | c :: cs => (digit? c).bind fun d => natOfDigitsFrom? (10 * n + d) cs

/-- The number written by a non-empty list of decimal digits. -/
def natOfDigits? : List Char → Option Nat
  | [] => none
  | c :: cs => natOfDigitsFrom? 0 (c :: cs)

/-- An optional sign and what follows it; `true` for a minus. -/
def splitSign : List Char → Bool × List Char
  | '-' :: cs => (true, cs)
  | '+' :: cs => (false, cs)
  | cs => (false, cs)

/-- A signed integer in decimal digits, `none` if it is none or does not fit into 64 bits. -/
def int64? (s : List Char) : Option Int64 :=
  let (negative, digits) := splitSign s
  match natOfDigits? digits with
  | some n =>
    if negative then if n ≤ Nat.pow 2 63 then some (Int64.ofInt (-n)) else none
    else if n < Nat.pow 2 63 then some (Int64.ofNat n) else none
  | none => none

/-- An unsigned integer in decimal digits, `none` if it is none or does not fit into 64 bits.
A plus is allowed, a minus is not. -/
def word64? (s : List Char) : Option UInt64 :=
  let digits := match s with
    | '+' :: cs => cs
    | cs => cs
  match natOfDigits? digits with
  | some n => if n < Nat.pow 2 64 then some (UInt64.ofNat n) else none
  | none => none

end ClassDiagram.Number
