/-!
# Slices by byte offsets

A place in a text can be told by its byte offset, the number of octets before it in UTF-8.  Not
every number is the offset of a place: `slice?` gives the part of a text between two offsets only if
they are in order, lie within the text and do not fall inside a character.  Between the characters
of a prefix and those of the rest lies the offset that the prefix has octets (`slice?_append`).
-/

namespace ClassDiagram.Text

/-- The number of octets of a text. -/
def byteSize (s : List Char) : Nat := (s.map Char.utf8Size).foldr (· + ·) 0

/-- The characters of a text with the offset of each, the first one standing at `i`. -/
def charOffsets (i : Nat) : List Char → List (Nat × Char)
  | [] => []
  | c :: s => (i, c) :: charOffsets (i + c.utf8Size) s

/-- What stands in a text between the offsets `i` and `j`, `none` unless they are in order and
both of them lie within the text and between characters. -/
def slice? (s : String) (i j : Nat) : Option String :=
  if h : i ≤ j ∧ String.Pos.Raw.IsValid s ⟨i⟩ ∧ String.Pos.Raw.IsValid s ⟨j⟩ then
    some (s.extract (s.pos ⟨i⟩ h.2.1) (s.pos ⟨j⟩ h.2.2))
  else none

/-! ### Laws -/

@[simp] theorem byteSize_nil : byteSize [] = 0 := rfl

@[simp] theorem byteSize_cons (c : Char) (s : List Char) :
    byteSize (c :: s) = c.utf8Size + byteSize s := rfl

@[simp] theorem byteSize_append (s t : List Char) :
    byteSize (s ++ t) = byteSize s + byteSize t := by
  induction s with
  | nil => simp
  | cons c s ih => simp [ih, Nat.add_assoc]

@[simp] theorem utf8ByteSize_ofList (s : List Char) :
    (String.ofList s).utf8ByteSize = byteSize s := by
  induction s with
  | nil => rfl
  | cons c s ih =>
    have hcons : String.ofList (c :: s) = String.singleton c ++ String.ofList s := by
      rw [String.singleton_eq_ofList, ← String.ofList_append, List.singleton_append]
    rw [hcons, String.utf8ByteSize_append, String.utf8ByteSize_singleton, ih, byteSize_cons]

@[simp] theorem byteSize_toList (s : String) : byteSize s.toList = s.utf8ByteSize := by
  rw [← utf8ByteSize_ofList, String.ofList_toList]

theorem byteSize_le_of_sublist {s t : List Char} (h : s.Sublist t) : byteSize s ≤ byteSize t := by
  induction h with
  | slnil => exact Nat.le_refl _
  | cons c _ ih =>
    rw [byteSize_cons]
    omega
  | cons_cons c _ ih =>
    rw [byteSize_cons, byteSize_cons]
    omega

theorem byteSize_eq_zero_iff {s : List Char} : byteSize s = 0 ↔ s = [] := by
  cases s with
  | nil => simp
  | cons c s =>
    have hpos := c.utf8Size_pos
    simp only [byteSize_cons, List.cons_ne_nil, iff_false]
    omega

/-- A slice has as many octets as lie between its offsets. -/
theorem utf8ByteSize_of_slice?_eq_some {s t : String} {i j : Nat} (h : slice? s i j = some t) :
    i + t.utf8ByteSize = j ∧ j ≤ s.utf8ByteSize := by
  rw [slice?] at h
  split at h
  · next hvalid =>
    have hbound : j ≤ s.utf8ByteSize := hvalid.2.2.le_rawEndPos
    have hsize : t.utf8ByteSize = min j s.utf8ByteSize - i := by
      rw [← Option.some.inj h, ← String.size_toByteArray, String.toByteArray_extract,
        ByteArray.size_extract, String.size_toByteArray]
      rfl
    omega
  · cases h

/-- There is a place behind every prefix of a text. -/
theorem isValid_byteSize (s t : List Char) :
    String.Pos.Raw.IsValid (String.ofList (s ++ t)) ⟨byteSize s⟩ := by
  refine String.Pos.Raw.isValid_iff_exists_append.2 ⟨String.ofList s, String.ofList t, ?_, ?_⟩
  · exact String.ofList_append
  · rw [String.Pos.Raw.ext_iff, String.byteIdx_rawEndPos, utf8ByteSize_ofList]

/-- Between a prefix and the rest a text can be cut. -/
theorem slice?_append (a m b : List Char) :
    slice? (String.ofList (a ++ (m ++ b))) (byteSize a) (byteSize a + byteSize m) =
      some (String.ofList m) := by
  have hstart := isValid_byteSize a (m ++ b)
  have hstop := isValid_byteSize (a ++ m) b
  rw [List.append_assoc, byteSize_append] at hstop
  have hsize : ∀ s : List Char, s.utf8Encode.size = byteSize s := by
    intro s
    rw [← String.toByteArray_ofList, String.size_toByteArray, utf8ByteSize_ofList]
  rw [slice?, dif_pos ⟨Nat.le_add_right _ _, hstart, hstop⟩, Option.some.injEq,
    ← String.toByteArray_inj, String.toByteArray_extract]
  calc (String.ofList (a ++ (m ++ b))).toByteArray.extract (byteSize a) (byteSize a + byteSize m)
      = (a.utf8Encode ++ (m.utf8Encode ++ b.utf8Encode)).extract (a.utf8Encode.size + 0)
          (a.utf8Encode.size + m.utf8Encode.size) := by
        simp only [String.toByteArray_ofList, List.utf8Encode_append, hsize, Nat.add_zero]
    _ = (m.utf8Encode ++ b.utf8Encode).extract 0 m.utf8Encode.size :=
        ByteArray.extract_append_size_add
    _ = m.utf8Encode := ByteArray.extract_append_eq_left rfl
    _ = (String.ofList m).toByteArray := String.toByteArray_ofList.symm

theorem slice?_front (a b : List Char) :
    slice? (String.ofList (a ++ b)) 0 (byteSize a) = some (String.ofList a) := by
  have h := slice?_append [] a b
  rwa [byteSize_nil, Nat.zero_add] at h

/-- Behind a prefix, the rest of the text can be cut off. -/
theorem slice?_rest (a b : List Char) :
    slice? (String.ofList (a ++ b)) (byteSize a) (String.ofList (a ++ b)).utf8ByteSize =
      some (String.ofList b) := by
  have h := slice?_append a b []
  rw [List.append_nil] at h
  rw [utf8ByteSize_ofList, byteSize_append, h]

end ClassDiagram.Text
