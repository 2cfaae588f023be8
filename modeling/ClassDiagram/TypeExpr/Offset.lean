import ClassDiagram.Text.Slice
import ClassDiagram.TypeExpr.Parser

/-!
# Reading by byte offsets

A text is held in UTF-8, and a reader that does not copy it tells places in it by byte offsets: a
scan gives the offset of what it finds, and the text is then sliced there.  The functions here are
the scans and cuts of a type expression in that form.  The scan for an arrow looks at the octets of
the text, the others at its characters and their offsets.

A slice between offsets that are no places of the text is not there, and neither is then what would
have been made of it: whatever takes slices gives an `Option`, which is `none` in that case.

As in the scans by characters, the depths have no bound.  Depths counted in 32 bits are the same on
every text with fewer than 2^31 brackets.

A slice has as many octets as its offsets are apart.  So the parts of a text that are read in their
turn have fewer octets than the text, or no more than it and are read by a later one of the
functions, and the reading ends.
-/

namespace ClassDiagram.TypeExpr.Offset

open ClassDiagram.Text

/-! ### Scans -/

/-- The octets of a text. -/
def octets (s : String) : List UInt8 := s.toByteArray.data.toList

/-- How an octet changes the depth. -/
def octetStep (b : UInt8) : Int :=
  if b = '['.toUInt8 ∨ b = '('.toUInt8 then 1
  else if b = ']'.toUInt8 ∨ b = ')'.toUInt8 then -1
  else 0

/-- The offset of the first arrow at depth zero, when the octets begin at depth `d` and offset
`i`. -/
def arrowFrom (d : Int) (i : Nat) : List UInt8 → Option Nat
  | [] => none
  | b :: bs =>
    if b = '='.toUInt8 ∧ d = 0 ∧ bs.head? = some '>'.toUInt8 then some i
    else arrowFrom (d + octetStep b) (i + 1) bs

/-- The offset of the first arrow outside brackets. -/
def arrow? (s : String) : Option Nat := arrowFrom 0 0 (octets s)

/-- The offset of the first `[` outside parentheses, when the characters begin inside `parens` of
them. -/
def bracketFrom (parens : Int) : List (Nat × Char) → Option Nat
  | [] => none
  | (i, c) :: s =>
    if c = '[' ∧ parens = 0 then some i
    else
      let change : Int := if c = '(' then 1 else if c = ')' then -1 else 0
      bracketFrom (parens + change) s

/-- The offset of the first `[` outside parentheses. -/
def bracket? (s : String) : Option Nat := bracketFrom 0 (charOffsets 0 s.toList)

/-- The offset of the first closing bracket behind which the depth is zero, when the characters
begin at depth `d`. -/
def closeFrom (d : Int) : List (Nat × Char) → Option Nat
  | [] => none
  | (i, c) :: s =>
    if isClosing c ∧ d + depthStep c = 0 then some i else closeFrom (d + depthStep c) s

/-- The offset of the bracket closing the one at the offset `start`. -/
def close? (s : String) (start : Nat) : Option (Option Nat) := do
  let rest ← slice? s start s.utf8ByteSize
  return (closeFrom 0 (charOffsets 0 rest.toList)).map fun i => start + i

/-- What stands in a text between a `(` at its beginning and the bracket closing it at its end. -/
def parenthesized? (s : String) : Option (Option String) :=
  if s.toList.head? = some '(' then do
    match ← close? s 0 with
    | some close =>
      if close = s.utf8ByteSize - 1 then
        let inner ← slice? s 1 close
        return some inner
      else return none
    | none => return none
  else return none

/-- The trimmed parts of a text between the commas at depth zero, where the part that is being read
begins at `start` and the characters yet to be read begin at depth `d`. -/
def piecesFrom (s : String) (d : Int) (start : Nat) : List (Nat × Char) → Option (List String)
  | [] => do
    let piece ← slice? s start s.utf8ByteSize
    return [trimmed piece]
  | (i, c) :: rest =>
    if c = ',' ∧ d = 0 then do
      let piece ← slice? s start i
      let pieces ← piecesFrom s d (i + 1) rest
      return trimmed piece :: pieces
    else piecesFrom s (d + depthStep c) start rest

/-- The trimmed parts of a list separated by commas at depth zero; a blank text has none. -/
def chop (s : String) : Option (List String) :=
  if blank s then some [] else piecesFrom s 0 0 (charOffsets 0 s.toList)

/-! ### Sizes -/

theorem utf8ByteSize_trimmed_le (s : String) : (trimmed s).utf8ByteSize ≤ s.utf8ByteSize := by
  rw [trimmed, utf8ByteSize_ofList, ← byteSize_toList]
  exact byteSize_le_of_sublist (trim_sublist _)

/-- A closing bracket is found at or behind the place where the search begins. -/
theorem le_of_close?_eq_some {s : String} {start close : Nat}
    (h : close? s start = some (some close)) : start ≤ close := by
  rw [close?] at h
  obtain ⟨rest, -, h⟩ := Option.bind_eq_some_iff.1 h
  obtain ⟨i, -, rfl⟩ := Option.map_eq_some_iff.1 (Option.some.inj h)
  exact Nat.le_add_right _ _

/-- What stands in parentheses has fewer octets than the text with them. -/
theorem utf8ByteSize_lt_of_parenthesized? {s inner : String}
    (h : parenthesized? s = some (some inner)) : inner.utf8ByteSize < s.utf8ByteSize := by
  rw [parenthesized?] at h
  split at h
  · obtain ⟨close, -, h⟩ := Option.bind_eq_some_iff.1 h
    cases close with
    | none => cases h
    | some close =>
      dsimp only at h
      split at h
      · obtain ⟨t, ht, hinner⟩ := Option.bind_eq_some_iff.1 h
        obtain rfl := Option.some.inj (Option.some.inj hinner)
        have hsize := utf8ByteSize_of_slice?_eq_some ht
        omega
      · cases h
  · cases h

theorem utf8ByteSize_le_of_mem_piecesFrom {s p : String} {d : Int} {start : Nat}
    {rest : List (Nat × Char)} {pieces : List String}
    (h : piecesFrom s d start rest = some pieces) (hp : p ∈ pieces) :
    p.utf8ByteSize ≤ s.utf8ByteSize := by
  have hslice : ∀ {i j : Nat} {t : String}, slice? s i j = some t →
      (trimmed t).utf8ByteSize ≤ s.utf8ByteSize := by
    intro i j t ht
    have hsize := utf8ByteSize_of_slice?_eq_some ht
    have htrim := utf8ByteSize_trimmed_le t
    omega
  induction rest generalizing d start pieces with
  | nil =>
    obtain ⟨t, ht, hpieces⟩ := Option.bind_eq_some_iff.1 h
    obtain rfl := Option.some.inj hpieces
    obtain rfl := List.mem_singleton.1 hp
    exact hslice ht
  | cons next rest ih =>
    obtain ⟨i, c⟩ := next
    rw [piecesFrom] at h
    split at h
    · obtain ⟨t, ht, h⟩ := Option.bind_eq_some_iff.1 h
      obtain ⟨others, hothers, hpieces⟩ := Option.bind_eq_some_iff.1 h
      obtain rfl := Option.some.inj hpieces
      rcases List.mem_cons.1 hp with rfl | hp
      · exact hslice ht
      · exact ih hothers hp
    · exact ih h hp

/-- No part of a list has more octets than the list. -/
theorem utf8ByteSize_le_of_mem_chop {s p : String} {pieces : List String}
    (h : chop s = some pieces) (hp : p ∈ pieces) : p.utf8ByteSize ≤ s.utf8ByteSize := by
  rw [chop] at h
  split at h
  · obtain rfl := Option.some.inj h
    cases hp
  · exact utf8ByteSize_le_of_mem_piecesFrom h hp

/-! ### Reading -/

/-- What comes of reading a text by slices of it: `none` if one of them is not there. -/
abbrev Reading := ExceptT ParseError Option

mutual

/-- Reads a type expression. -/
def parse (input : String) : Reading TypeExpr :=
  parseTrimmed (trimmed input)
termination_by (input.utf8ByteSize, 2)
decreasing_by
  exact Prod.Lex.right' _ (utf8ByteSize_trimmed_le input) (by decide)

/-- Reads a type expression without white space at either end. -/
def parseTrimmed (s : String) : Reading TypeExpr :=
  if s.isEmpty then return empty
  else match Builtin.ofName? s with
  | some b => return builtin b
  | none =>
    if isNested s.toList then
      match arrow? s with
      | some arrow => do
        let ⟨left, _hleft⟩ ← (slice? s 0 arrow).attach
        let ⟨right, _hright⟩ ← (slice? s (arrow + 2) s.utf8ByteSize).attach
        parseFunction left right
      | none =>
        match bracket? s with
        | some start => parseGeneric s start
        | none => do
          match ← (parenthesized? s).attach with
          | ⟨some inner, _hinner⟩ =>
            let items ← parseList inner
            return tuple items
          | ⟨none, _⟩ => return user (EntityRef.unqualified s)
    else throw (.unbalanced s)
termination_by (s.utf8ByteSize, 1)
decreasing_by
  · have hl := utf8ByteSize_of_slice?_eq_some _hleft
    have hr := utf8ByteSize_of_slice?_eq_some _hright
    exact Prod.Lex.left _ _ (by omega)
  · exact Prod.Lex.right _ (by decide)
  · exact Prod.Lex.left _ _ (utf8ByteSize_lt_of_parenthesized? _hinner)

/-- Reads a list of type expressions separated by commas. -/
def parseList (s : String) : Reading (List TypeExpr) := do
  let ⟨pieces, _hpieces⟩ ← (chop s).attach
  pieces.attach.mapM fun ⟨piece, _hpiece⟩ => parse piece
termination_by (s.utf8ByteSize, 3)
decreasing_by
  exact Prod.Lex.right' _ (utf8ByteSize_le_of_mem_chop _hpieces _hpiece) (by decide)

/-- Reads the trimmed inputs of a function: any number of them in parentheses, or else one. -/
def parseInputs (left : String) : Reading (List TypeExpr) := do
  match ← (parenthesized? left).attach with
  | ⟨some inner, _hinner⟩ => parseList inner
  | ⟨none, _⟩ =>
    let input ← parse left
    return [input]
termination_by (left.utf8ByteSize, 3)
decreasing_by
  · exact Prod.Lex.left _ _ (utf8ByteSize_lt_of_parenthesized? _hinner)
  · exact Prod.Lex.right _ (by decide)

/-- Reads a function from the texts before and after its arrow. -/
def parseFunction (left right : String) : Reading TypeExpr := do
  let inputs ← parseInputs (trimmed left)
  let output ← parse right
  return function inputs output
termination_by (left.utf8ByteSize + right.utf8ByteSize, 4)
decreasing_by
  · exact Prod.Lex.right' _
      (Nat.le_trans (utf8ByteSize_trimmed_le left) (Nat.le_add_right _ _)) (by decide)
  · exact Prod.Lex.right' _ (Nat.le_add_left _ _) (by decide)

/-- Reads a generic type whose parameters begin behind the offset `start`. -/
def parseGeneric (s : String) (start : Nat) : Reading TypeExpr := do
  match ← (close? s start).attach with
  | ⟨none, _⟩ => throw (.unbalanced s)
  | ⟨some close, _hclose⟩ =>
    let ⟨after, _hafter⟩ ← (slice? s (close + 1) s.utf8ByteSize).attach
    if blank after then
      let ⟨base, _hbase⟩ ← (slice? s 0 start).attach
      let t ← parse (trimmed base)
      if t.isAtom then
        let ⟨inner, _hinner⟩ ← (slice? s (start + 1) close).attach
        let params ← parseList inner
        return generic t params
      else throw (.invalidGenericBase s (trimmed base))
    else throw (.trailingInput s)
termination_by (s.utf8ByteSize, 0)
decreasing_by
  all_goals
    have hle := le_of_close?_eq_some _hclose
    have ha := utf8ByteSize_of_slice?_eq_some _hafter
  · have hb := utf8ByteSize_of_slice?_eq_some _hbase
    have htrim := utf8ByteSize_trimmed_le base
    exact Prod.Lex.left _ _ (by omega)
  · have hi := utf8ByteSize_of_slice?_eq_some _hinner
    exact Prod.Lex.left _ _ (by omega)

end

/-! ### Equations

A slice is attached to where it comes from only for the reading to end; each function reads as it
would without that. -/

theorem attach_bind {α β : Type} {o : Option α} {f : {a // o = some a} → Reading β}
    {g : α → Reading β} (h : ∀ a ha, f ⟨a, ha⟩ = g a) :
    (liftM o.attach : Reading {a // o = some a}) >>= f = (liftM o : Reading α) >>= g := by
  cases o with
  | none => rfl
  | some a => exact h a rfl

theorem parseTrimmed_eq (s : String) :
    parseTrimmed s =
      if s.isEmpty then return empty
      else match Builtin.ofName? s with
      | some b => return builtin b
      | none =>
        if isNested s.toList then
          match arrow? s with
          | some arrow => do
            let left ← slice? s 0 arrow
            let right ← slice? s (arrow + 2) s.utf8ByteSize
            parseFunction left right
          | none =>
            match bracket? s with
            | some start => parseGeneric s start
            | none => do
              match ← parenthesized? s with
              | some inner =>
                let items ← parseList inner
                return tuple items
              | none => return user (EntityRef.unqualified s)
        else throw (.unbalanced s) := by
  rw [parseTrimmed]
  refine ite_congr rfl (fun _ => rfl) fun _ => ?_
  cases Builtin.ofName? s with
  | some b => rfl
  | none =>
    refine ite_congr rfl (fun _ => ?_) fun _ => rfl
    cases arrow? s with
    | some arrow => exact attach_bind fun left _ => attach_bind fun right _ => rfl
    | none =>
      cases bracket? s with
      | some start => rfl
      | none =>
        refine attach_bind fun inside _ => ?_
        cases inside <;> rfl

theorem parseList_eq (s : String) :
    parseList s = (do
      let pieces ← chop s
      pieces.mapM parse) := by
  rw [parseList]
  exact attach_bind fun pieces _ => mapM_attach parse pieces

theorem parseInputs_eq (left : String) :
    parseInputs left = (do
      match ← parenthesized? left with
      | some inner => parseList inner
      | none =>
        let input ← parse left
        return [input]) := by
  rw [parseInputs]
  refine attach_bind fun inside _ => ?_
  cases inside <;> rfl

theorem parseGeneric_eq (s : String) (start : Nat) :
    parseGeneric s start = (do
      match ← close? s start with
      | none => throw (.unbalanced s)
      | some close =>
        let after ← slice? s (close + 1) s.utf8ByteSize
        if blank after then
          let base ← slice? s 0 start
          let t ← parse (trimmed base)
          if t.isAtom then
            let inner ← slice? s (start + 1) close
            let params ← parseList inner
            return generic t params
          else throw (.invalidGenericBase s (trimmed base))
        else throw (.trailingInput s)) := by
  rw [parseGeneric]
  refine attach_bind fun close _ => ?_
  cases close with
  | none => rfl
  | some close =>
    refine attach_bind fun after _ => ?_
    refine ite_congr rfl (fun _ => ?_) fun _ => rfl
    refine attach_bind fun base _ => bind_congr fun t => ?_
    refine ite_congr rfl (fun _ => ?_) fun _ => rfl
    exact attach_bind fun inner _ => rfl

end ClassDiagram.TypeExpr.Offset
