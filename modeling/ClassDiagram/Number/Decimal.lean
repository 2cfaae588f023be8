import ClassDiagram.Number.Integer

/-!
# Real numbers in decimal notation

`float?` reads a real number as the nearest binary64 value.  A number is an optional sign and
either one of the words `inf`, `infinity` and `nan` in any case, or decimal digits with an
optional point and an optional exponent.  Digits may be missing on one side of the point.
-/

namespace ClassDiagram.Number

/-- An unsigned number in decimal notation: the value is `digits · 10 ^ exponent`. -/
structure Decimal where
  /-- All digits of the number, without its point. -/
  digits : Nat
  /-- The power of ten that puts the point into its place. -/
  exponent : Int
deriving DecidableEq

/-- The exponent after its mark: an optional sign and at least one digit. -/
def exponent? (s : List Char) : Option Int :=
  let (negative, digits) := splitSign s
  (natOfDigits? digits).map fun n => if negative then -(n : Int) else n

/-- An unsigned decimal number. -/
def Decimal.read? (s : List Char) : Option Decimal := do
  let isDigit := fun c => (digit? c).isSome
  let whole := s.takeWhile isDigit
  let afterWhole := s.dropWhile isDigit
  let (fraction, rest) := match afterWhole with
    | '.' :: cs => (cs.takeWhile isDigit, cs.dropWhile isDigit)
    | cs => ([], cs)
  let digits ← natOfDigits? (whole ++ fraction)
  let scale ← match rest with
    | [] => some 0
    | c :: cs => if c = 'e' ∨ c = 'E' then exponent? cs else none
  return ⟨digits, scale - fraction.length⟩

/-- The binary64 value nearest to a decimal number; of two equally near ones, the even one. -/
def Decimal.toFloat (d : Decimal) : Float :=
  Float.ofScientific d.digits (d.exponent < 0) d.exponent.natAbs

/-- The words for numbers that have no digits. -/
def specialFloat? (s : List Char) : Option Float :=
  let word := String.ofList (s.map Char.toLower)
  if word = "inf" ∨ word = "infinity" then some (1.0 / 0.0)
  else if word = "nan" then some (0.0 / 0.0)
  else none

/-- A real number with an optional sign, rounded to binary64. -/
def float? (s : List Char) : Option Float :=
  let (negative, rest) := splitSign s
  let magnitude := (specialFloat? rest).or ((Decimal.read? rest).map Decimal.toFloat)
  magnitude.map fun x => if negative then -x else x

end ClassDiagram.Number
