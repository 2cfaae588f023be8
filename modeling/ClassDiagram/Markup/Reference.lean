import ClassDiagram.Text.Utf8

/-!
# References in text

Text and attribute values may hold references: `&lt;`, `&gt;`, `&amp;`, `&apos;`, `&quot;`, and
characters by number, `&#65;` or `&#x41;`.  `expand?` replaces each of them by its character and
refuses every other use of the ampersand.

Replacing references is the part of an XML library, whose documented behaviour is written out here.
What is proved of drawings takes the texts as they come out of it.
-/

namespace ClassDiagram.Markup

/-- The value of a digit in base 16 or below. -/
def baseDigit? (base : Nat) (c : Char) : Option Nat :=
  let d :=
    if '0' ≤ c && c ≤ '9' then c.toNat - '0'.toNat
    else if 'a' ≤ c && c ≤ 'f' then c.toNat - 'a'.toNat + 10
    else if 'A' ≤ c && c ≤ 'F' then c.toNat - 'A'.toNat + 10
    else base
  if d < base then some d else none

/-- The number written by digits in base 16 or below, after the digits of `n`. -/
def baseNumber? (base n : Nat) : List Char → Option Nat
  | [] => some n
  | c :: cs => (baseDigit? base c).bind fun d => baseNumber? base (base * n + d) cs

/-- The character of a code point other than zero. -/
def charOfCode? (n : Nat) : Option Char :=
  if n ≠ 0 ∧ n.isValidChar then some (Char.ofNat n) else none

/-- The character given by number, in hexadecimal digits after an `x`, else in decimal digits. -/
def numberedReference? (digits : List Char) : Option Char :=
  let (base, digits) := if digits.head? = some 'x' then (16, digits.drop 1) else (10, digits)
  if digits.isEmpty then none else (baseNumber? base 0 digits).bind charOfCode?

/-- The characters that have a name. -/
def namedReferences : List (String × Char) :=
  [("lt", '<'), ("gt", '>'), ("amp", '&'), ("apos", '\''), ("quot", '"')]

/-- The character that a reference stands for, given what is between the ampersand and the
semicolon. -/
def reference? (name : List Char) : Option Char :=
  if name.head? = some '#' then numberedReference? (name.drop 1)
  else namedReferences.lookup (String.ofList name)

/-- A character at which a reference ends, or the next one begins. -/
def endsReference (c : Char) : Bool := c = ';' || c = '&'

/-- The text with its references replaced.  Each ampersand has to begin a known reference that
ends before the next ampersand. -/
def expand? : List Char → Option (List Char)
  | [] => some []
  | c :: s =>
    if c = '&' then
      match s.dropWhile fun d => !endsReference d with
      | ';' :: _ =>
        (reference? (s.takeWhile fun d => !endsReference d)).bind fun r =>
          (expand? ((s.dropWhile fun d => !endsReference d).drop 1)).map (r :: ·)
      | _ => none
    else (expand? s).map (c :: ·)
termination_by s => s.length
decreasing_by
  · have := (List.dropWhile_sublist (l := s) fun d => !endsReference d).length_le
    simp only [List.length_drop, List.length_cons]
    omega
  · simp

/-- The text written by bytes: UTF-8 with references. -/
def textOfBytes? (s : List UInt8) : Option String :=
  ((Text.Utf8.decode? s).bind expand?).map String.ofList

end ClassDiagram.Markup
