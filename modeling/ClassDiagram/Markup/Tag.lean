import ClassDiagram.Dictionary
import ClassDiagram.Markup.Error
import ClassDiagram.Markup.Reference
import ClassDiagram.Text.Cut

/-!
# Tags

The content of a start tag is the name of the element, followed by its attributes.  The kind of
the element is its name without the part up to the first colon; attributes keep their full names.
`Tag.read` reads both, from left to right, and the first fault counts.

Reading tags is the part of an XML library.  This reader stands in the place of one: it follows the
documented behaviour of a library that neither checks names nor resolves namespaces.  Only
`Tag.read_of_spelling` is about it; what is proved of drawings begins at the events.
-/

namespace ClassDiagram

open Text

namespace Markup

/-- The white space of markup: blank, line feed, carriage return and tabulator. -/
def isSpaceByte (b : UInt8) : Bool :=
  b = 0x20 || b = 0x0A || b = 0x0D || b = 0x09

/-- The bytes that begin and end an attribute value. -/
def isQuoteByte (b : UInt8) : Bool :=
  b = 0x22 || b = 0x27

/-- The start tag of an element. -/
structure Tag where
  /-- The kind of the element. -/
  kind : String
  /-- The attributes of the element. -/
  attributes : Dictionary String

namespace Tag

/-! ### Attributes -/

/-- One attribute with the bytes after it. -/
structure Attribute where
  /-- The bytes of the name. -/
  name : List UInt8
  /-- The bytes between the quotes. -/
  value : List UInt8
  /-- What follows the closing quote. -/
  rest : List UInt8

/-- The quoted value at the head of `s`, as the value of the attribute `name`. -/
def quotedValue? (name : List UInt8) : List UInt8 → Option Attribute
  | [] => none
  | q :: s =>
    if isQuoteByte q then (cutAt [q] s).map fun (value, rest) => ⟨name, value, rest⟩ else none

/-- The attribute that begins with the byte `b` and goes on in `s`.  Its name has at least one byte
and ends at a space or an equals sign. -/
def attribute? (b : UInt8) (s : List UInt8) : Option Attribute :=
  let inName := fun (c : UInt8) => !(c = 0x3D || isSpaceByte c)
  match (s.dropWhile inName).dropWhile isSpaceByte with
  | c :: t =>
    if c = 0x3D then quotedValue? (b :: s.takeWhile inName) (t.dropWhile isSpaceByte) else none
  | [] => none

theorem length_rest_quotedValue? {name s : List UInt8} {a : Attribute}
    (h : quotedValue? name s = some a) : a.rest.length < s.length := by
  cases s with
  | nil => simp [quotedValue?] at h
  | cons q s =>
    rw [quotedValue?] at h
    split at h
    · simp only [Option.map_eq_some_iff, Prod.exists] at h
      obtain ⟨v, r, hc, rfl⟩ := h
      have := length_after_cutAt hc
      simp only [List.length_cons, List.length_nil] at this ⊢
      omega
    · simp at h

theorem length_rest_attribute? {b : UInt8} {s : List UInt8} {a : Attribute}
    (h : attribute? b s = some a) : a.rest.length < s.length := by
  unfold attribute? at h
  dsimp only at h
  split at h
  · next c t ht =>
    split at h
    · have h1 := length_rest_quotedValue? h
      have h2 := (List.dropWhile_sublist (l := t) isSpaceByte).length_le
      have h3 := congrArg List.length ht
      simp only [List.length_cons] at h3
      have h4 := (List.dropWhile_sublist (l := s.dropWhile fun c =>
        !(decide (c = 0x3D) || isSpaceByte c)) isSpaceByte).length_le
      have h5 := (List.dropWhile_sublist (l := s) fun c =>
        !(decide (c = 0x3D) || isSpaceByte c)).length_le
      omega
    · simp at h
  · simp at h

/-- The attributes read so far with one more. -/
def addAttribute (d : Dictionary String) (a : Attribute) :
    Except MarkupError (Dictionary String) :=
  match (Utf8.decode? a.name).map String.ofList with
  | none => .error .attributeName
  | some name =>
    if d.contains name then .error .attributeForm
    else match textOfBytes? a.value with
      | none => .error .attributeValue
      | some value => .ok (d.insert name value)

/-- The attributes in `s`, added to those read so far. -/
def readAttributes (d : Dictionary String) (s : List UInt8) :
    Except MarkupError (Dictionary String) :=
  match _hs : s.dropWhile isSpaceByte with
  | [] => .ok d
  | b :: t =>
    match _ha : attribute? b t with
    | none => .error .attributeForm
    | some a =>
      match addAttribute d a with
      | .error e => .error e
      | .ok d => readAttributes d a.rest
termination_by s.length
decreasing_by
  have h1 := length_rest_attribute? _ha
  have h2 := congrArg List.length _hs
  have h3 := (List.dropWhile_sublist (l := s) isSpaceByte).length_le
  simp only [List.length_cons] at h2
  omega

/-! ### The whole tag -/

/-- The name at the beginning of a tag, with its prefix. -/
def fullName (content : List UInt8) : List UInt8 :=
  content.takeWhile fun b => !isSpaceByte b

/-- The name without the part up to its first colon. -/
def localName (name : List UInt8) : List UInt8 :=
  match cutAt [0x3A] name with
  | some (_, after) => after
  | none => name

/-- The tag with the given content between its angle brackets. -/
def read (content : List UInt8) : Except MarkupError Tag :=
  match Utf8.decode? (localName (fullName content)) with
  | none => .error .elementName
  | some kind =>
    (readAttributes Dictionary.empty (content.dropWhile fun b => !isSpaceByte b)).map
      fun attributes => ⟨String.ofList kind, attributes⟩

end Tag

end Markup

end ClassDiagram
