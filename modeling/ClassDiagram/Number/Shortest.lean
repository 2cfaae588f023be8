/-!
# The shortest decimal text of a binary64 value

A finite value is written with the fewest digits that read back as that value, in positional
notation without an exponent.  `Span` is the interval of reals that round to a value; a grid of
`n` digits holds two neighbours of the value, and the first grid with a neighbour in the interval
gives the digits (`Span.digits?`).  Of two neighbours in the interval the nearer one is taken, and
the larger one when both are equally near.
-/

namespace ClassDiagram.Number

/-! ### The reals that round to a value -/

/-- A positive value `mid · 2 ^ exponent` with the bounds of the reals that round to it. -/
structure Span where
  /-- The lower bound, in units of `2 ^ exponent`. -/
  low : Nat
  /-- The value, in units of `2 ^ exponent`. -/
  mid : Nat
  /-- The upper bound, in units of `2 ^ exponent`. -/
  high : Nat
  /-- The binary exponent of the unit. -/
  exponent : Int
  /-- The bounds themselves round to the value. -/
  closed : Bool

/-- The span of the value `significand · 2 ^ exponent`.  `narrow` says that the value begins a
binade, so that the next value below is only half as far away as the next one above. -/
def Span.ofValue (significand : Nat) (exponent : Int) (narrow : Bool) : Span where
  low := 4 * significand - (if narrow then 1 else 2)
  mid := 4 * significand
  high := 4 * significand + 2
  exponent := exponent - 2
  closed := significand % 2 == 0

/-! ### Decimal grids -/

/-- The numerator and the denominator of `2 ^ exponent · 10 ^ places`. -/
def Span.scale (s : Span) (places : Int) : Nat × Nat :=
  (Nat.pow 2 s.exponent.toNat * Nat.pow 10 places.toNat,
    Nat.pow 2 (-s.exponent).toNat * Nat.pow 10 (-places).toNat)

/-- The point `c · 10 ^ -places` of a decimal grid rounds to the value. -/
def Span.holds (s : Span) (places : Int) (c : Nat) : Bool :=
  let (num, den) := s.scale places
  if s.closed then s.low * num ≤ c * den && c * den ≤ s.high * num
  else s.low * num < c * den && c * den < s.high * num

/-- The neighbour of the value on the grid of unit `10 ^ -places` that rounds to it. -/
def Span.neighbour? (s : Span) (places : Int) : Option Nat :=
  let (num, den) := s.scale places
  let below := s.mid * num / den
  let down := s.holds places below
  let up := s.holds places (below + 1)
  if up && (!down || den ≤ 2 * (s.mid * num - below * den)) then some (below + 1)
  else if down then some below
  else none

/-- The number of decimal digits before the point of the value; zero or negative when the value
is less than one tenth of one. -/
def Span.magnitude (s : Span) : Int :=
  let (num, den) := s.scale 400
  ((Nat.toDigits 10 (s.mid * num / den)).length : Int) - 400

/-- The fewest digits that read back as the value: the number they write, and the number of
decimal places it is shifted by.  Seventeen digits always do. -/
def Span.digits? (s : Span) : Option (Nat × Int) :=
  let magnitude := s.magnitude
  (List.range' 1 17).findSome? fun (n : Nat) =>
    let places := (n : Int) - magnitude
    (s.neighbour? places).map fun c => (c, places)

/-! ### Positional text -/

/-- The text of `c · 10 ^ -places`, without an exponent and without zeros at the end of the
fraction. -/
def positional (c : Nat) (places : Int) : List Char :=
  let digits := Nat.toDigits 10 c
  let shift := places.toNat
  if shift = 0 then digits ++ List.replicate (-places).toNat '0'
  else
    let padded := List.replicate (shift + 1 - digits.length) '0' ++ digits
    let whole := padded.take (padded.length - shift)
    let fraction := ((padded.drop (padded.length - shift)).reverse.dropWhile (· == '0')).reverse
    if fraction.isEmpty then whole else whole ++ '.' :: fraction

/-- The interval of a finite binary64 value other than zero, given the exponent field and the
fraction field of its encoding. -/
def Span.ofFields (biased fraction : Nat) : Span :=
  if biased = 0 then Span.ofValue fraction (-1074) false
  else Span.ofValue (Nat.pow 2 52 + fraction) (biased - 1075) (fraction == 0)

/-- The text of a binary64 value: its sign unless it is no number, and its shortest digits. -/
def floatText (x : Float) : String :=
  let bits : Nat := x.toBits.toNat
  let biased : Nat := bits / Nat.pow 2 52 % Nat.pow 2 11
  let fraction : Nat := bits % Nat.pow 2 52
  let sign := if bits / Nat.pow 2 63 = 1 then "-" else ""
  if biased = 2047 then if fraction = 0 then sign ++ "inf" else "NaN"
  else if biased = 0 ∧ fraction = 0 then sign ++ "0"
  else match (Span.ofFields biased fraction).digits? with
    | some (c, places) => sign ++ String.ofList (positional c places)
    | none => sign

end ClassDiagram.Number
