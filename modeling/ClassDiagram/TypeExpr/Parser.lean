import ClassDiagram.Text.Blank
import ClassDiagram.TypeExpr.Basic
import ClassDiagram.TypeExpr.Bracket

/-!
# Reading type expressions

A type expression is read from the outside in.  `Form.of` finds the outermost form of a text, whose
parts are still texts; `parse` reads the parts in turn.  Every part is shorter than the text it
comes from (`Form.length_lt_of_mem_parts`), so the reading ends; `parseChars_eq` is its equation.

The rules, in order, on the trimmed text: nothing is `empty`; a builtin name is that builtin type;
brackets that do not pair up are refused; a text with an arrow outside brackets is a function; one
with a `[` outside parentheses is generic; one in parentheses is a tuple; anything else is the name
of an entity.
-/

namespace ClassDiagram

open Text

namespace TypeExpr

/-! ### Errors -/

/-- Why a text is no type expression. -/
inductive ParseError where
  /-- The brackets of the text do not pair up. -/
  | unbalanced (input : String)
  /-- The base of a generic type is neither a builtin type nor a name. -/
  | invalidGenericBase (input base : String)
  /-- Something follows the parameters of a generic type. -/
  | trailingInput (input : String)
deriving DecidableEq

/-- What is reported to the reader of the diagram. -/
def ParseError.message : ParseError → String
  | unbalanced input => "Unbalanced brackets in type expression '" ++ input ++ "'"
  | invalidGenericBase input base =>
    "Invalid generic base '" ++ base ++ "' in type expression '" ++ input ++ "'"
  | trailingInput input =>
    "Unexpected text after generic parameters in type expression '" ++ input ++ "'"

/-! ### The outermost form -/

/-- The outermost form of a type expression, its parts still being texts. -/
inductive Form where
  /-- A blank text. -/
  | empty
  /-- The name of a builtin type. -/
  | builtin (b : Builtin)
  /-- The name of an entity. -/
  | user (name : List Char)
  /-- A base with parameters in brackets. -/
  | generic (base : List Char) (params : List (List Char))
  /-- Inputs and the output of a function. -/
  | function (inputs : List (List Char)) (output : List Char)
  /-- The elements of a tuple. -/
  | tuple (items : List (List Char))
deriving DecidableEq

namespace Form

/-- The texts that a form is yet to be read from. -/
def parts : Form → List (List Char)
  | empty | builtin _ | user _ => []
  | generic base params => base :: params
  | function inputs output => output :: inputs
  | tuple items => items

/-- The form of a trimmed text with an arrow: its left side holds one input, or any number of them
in parentheses. -/
def ofSides (left right : List Char) : Form :=
  let left := trim left
  match parenthesized? left with
  | some inner => function (chop inner) right
  | none => function [left] right

/-- The form of the text `s` with a bracket after `base` and before `rest`. -/
def ofBracket (s base rest : List Char) : Except ParseError Form :=
  match cutClose 0 rest with
  | none => .error (.unbalanced (String.ofList s))
  | some (inner, after) =>
    if isBlank after then .ok (generic (trim base) (chop inner))
    else .error (.trailingInput (String.ofList s))

/-- The outermost form of a trimmed text. -/
def of (s : List Char) : Except ParseError Form :=
  if s.isEmpty then .ok empty
  else match Builtin.ofName? (String.ofList s) with
  | some b => .ok (builtin b)
  | none =>
    if isNested s then
      match cutArrow 0 s with
      | some (left, right) => .ok (ofSides left right)
      | none =>
        match cutOpen 0 s with
        | some (base, rest) => ofBracket s base rest
        | none =>
          match parenthesized? s with
          | some inner => .ok (tuple (chop inner))
          | none => .ok (user s)
    else .error (.unbalanced (String.ofList s))

theorem length_lt_of_mem_ofSides {left right part : List Char}
    (h : part ∈ (ofSides left right).parts) : part.length < left.length + 2 + right.length := by
  unfold ofSides at h
  have hl := length_trim_le left
  dsimp only at h
  split at h
  · next inner hi =>
    obtain ⟨c, -, hc⟩ := eq_of_parenthesized?_eq_some hi
    have hlen := congrArg List.length hc
    simp only [List.length_append, List.length_cons, List.length_nil] at hlen
    cases h with
    | head => omega
    | tail _ h =>
      have := length_le_of_mem_chop h
      omega
  · simp only [parts, List.mem_cons, List.not_mem_nil, or_false] at h
    rcases h with rfl | rfl <;> omega

theorem length_lt_of_mem_ofBracket {s base rest part : List Char} {f : Form}
    (hf : ofBracket s base rest = .ok f) (h : part ∈ f.parts) :
    part.length < base.length + 1 + rest.length := by
  unfold ofBracket at hf
  split at hf
  · simp at hf
  · next inner after hc =>
    split at hf
    · obtain rfl := by simpa using hf
      obtain ⟨c, -, hc⟩ := cutClose_eq_append hc
      have hlen := congrArg List.length hc
      simp only [List.length_append, List.length_cons] at hlen
      have hb := length_trim_le base
      cases h with
      | head => omega
      | tail _ h =>
        have := length_le_of_mem_chop h
        omega
    · simp at hf

/-- Every part of a form is shorter than the text of the form. -/
theorem length_lt_of_mem_parts {s part : List Char} {f : Form} (hf : of s = .ok f)
    (h : part ∈ f.parts) : part.length < s.length := by
  unfold of at hf
  split at hf
  · obtain rfl := by simpa using hf
    simp [parts] at h
  · split at hf
    · obtain rfl := by simpa using hf
      simp [parts] at h
    · split at hf
      · split at hf
        · next left right ha =>
          obtain rfl := by simpa using hf
          have hlen := congrArg List.length (cutArrow_eq_append ha)
          simp only [List.length_append, List.length_cons] at hlen
          have := length_lt_of_mem_ofSides h
          omega
        · split at hf
          · next base rest ho =>
            have hlen := congrArg List.length (cutOpen_eq_append ho)
            simp only [List.length_append, List.length_cons] at hlen
            have := length_lt_of_mem_ofBracket hf h
            omega
          · split at hf
            · next inner hi =>
              obtain rfl := by simpa using hf
              obtain ⟨c, -, hc⟩ := eq_of_parenthesized?_eq_some hi
              have hlen := congrArg List.length hc
              simp only [List.length_append, List.length_cons, List.length_nil] at hlen
              have := length_le_of_mem_chop h
              omega
            · obtain rfl := by simpa using hf
              simp [parts] at h
      · simp at hf

end Form

/-! ### Reading -/

/-- Reads a type expression from characters. -/
def parseChars (text : List Char) : Except ParseError TypeExpr :=
  match _h : Form.of (trim text) with
  | .error e => .error e
  | .ok .empty => .ok empty
  | .ok (.builtin b) => .ok (builtin b)
  | .ok (.user name) => .ok (user (EntityRef.unqualified (String.ofList name)))
  | .ok (.generic base params) => do
    let t ← parseChars base
    if t.isAtom then
      let ts ← params.attach.mapM fun ⟨p, _⟩ => parseChars p
      return generic t ts
    else
      throw (.invalidGenericBase (String.ofList (trim text)) (String.ofList base))
  | .ok (.function inputs output) => do
    let ts ← inputs.attach.mapM fun ⟨p, _⟩ => parseChars p
    let t ← parseChars output
    return function ts t
  | .ok (.tuple items) => do
    let ts ← items.attach.mapM fun ⟨p, _⟩ => parseChars p
    return tuple ts
termination_by text.length
decreasing_by
  all_goals
    refine Nat.lt_of_lt_of_le (Form.length_lt_of_mem_parts _h ?_) (length_trim_le text)
    simp [Form.parts, *]

/-- Reads a type expression. -/
def parse (text : String) : Except ParseError TypeExpr :=
  parseChars text.toList

theorem mapM_attach {α β : Type} {m : Type → Type} [Monad m] [LawfulMonad m] (f : α → m β)
    (l : List α) : (l.attach.mapM fun ⟨a, _⟩ => f a) = l.mapM f := by
  have h := List.mapM_map (m := m) (f := Subtype.val) (g := f) (l := l.attach)
  rw [List.attach_map_subtype_val] at h
  exact h.symm

/-- A text is read by its form: the form decides what is made of its parts, and each part is read
in the same way.  Of several errors the first one counts, in the order base, parameters, and
inputs, output. -/
theorem parseChars_eq (text : List Char) :
    parseChars text =
      match Form.of (trim text) with
      | .error e => .error e
      | .ok .empty => .ok empty
      | .ok (.builtin b) => .ok (builtin b)
      | .ok (.user name) => .ok (user (EntityRef.unqualified (String.ofList name)))
      | .ok (.generic base params) => do
        let t ← parseChars base
        if t.isAtom then
          let ts ← params.mapM parseChars
          return generic t ts
        else
          throw (.invalidGenericBase (String.ofList (trim text)) (String.ofList base))
      | .ok (.function inputs output) => do
        let ts ← inputs.mapM parseChars
        let t ← parseChars output
        return function ts t
      | .ok (.tuple items) => do
        let ts ← items.mapM parseChars
        return tuple ts := by
  rw [parseChars]
  split <;> simp only [mapM_attach, *]

end TypeExpr

end ClassDiagram
