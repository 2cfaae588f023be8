import ClassDiagram.Markup.Tag
import ClassDiagram.Proofs.Text.Cut

/-!
# Tags as they are written

The content of a tag is written as a name, with a prefix or without one, and attributes with spaces
around them, each value in quotes of either kind (`Tag.Spelling`).  `Tag.read_of_spelling` says that
it is read as the tag that it was written for: the attributes in their order
(`Tag.AttributeSpelling.exists_readAttributes`), and the name without its prefix.
-/

namespace ClassDiagram

open Text

namespace Dictionary

variable {α : Type}

theorem put_of_not_mem {name : String} {value : α} {l : List (String × α)}
    (h : name ∉ l.map Prod.fst) : put name value l = l ++ [(name, value)] := by
  induction l with
  | nil => rfl
  | cons e l ih =>
    rw [List.map_cons, List.mem_cons, not_or] at h
    rw [put, if_neg (Ne.symm h.1), ih h.2, List.cons_append]

end Dictionary

namespace Markup

namespace Tag

/-! ### Attributes -/

/-- The bytes spell the attributes, in order. -/
inductive AttributeSpelling : List (String × String) → List UInt8 → Prop
  | nil {gap : List UInt8} (hgap : ∀ b ∈ gap, isSpaceByte b = true) : AttributeSpelling [] gap
  | cons {name value : String} {attributes : List (String × String)} {q : UInt8}
      {gap key before after content rest : List UInt8}
      (hgap : ∀ b ∈ gap, isSpaceByte b = true)
      (hkey_ne : key ≠ []) (hkey : ∀ b ∈ key, b ≠ 0x3D ∧ isSpaceByte b = false)
      (hname : Utf8.decode? key = some name.toList)
      (hbefore : ∀ b ∈ before, isSpaceByte b = true) (hafter : ∀ b ∈ after, isSpaceByte b = true)
      (hq : isQuoteByte q = true) (hcontent : q ∉ content)
      (hvalue : textOfBytes? content = some value) (h : AttributeSpelling attributes rest) :
      AttributeSpelling ((name, value) :: attributes)
        (gap ++ (key ++ (before ++ 0x3D :: (after ++ q :: (content ++ q :: rest)))))

theorem isSpaceByte_eq_false_of_isQuoteByte {q : UInt8} (h : isQuoteByte q = true) :
    isSpaceByte q = false := by
  simp only [isQuoteByte, Bool.or_eq_true, decide_eq_true_eq] at h
  obtain rfl | rfl := h <;> rfl

theorem dropWhile_isSpaceByte_append {gap : List UInt8}
    (hgap : ∀ b ∈ gap, isSpaceByte b = true) {b : UInt8} (hb : isSpaceByte b = false)
    (s : List UInt8) : (gap ++ b :: s).dropWhile isSpaceByte = b :: s := by
  rw [List.dropWhile_append_of_pos hgap, List.dropWhile_cons_of_neg (by simp [hb])]

/-- One attribute is taken off the bytes, with its name, its value and what follows. -/
theorem attribute?_append {b q : UInt8} {key before after content : List UInt8}
    (hkey : ∀ b ∈ key, b ≠ 0x3D ∧ isSpaceByte b = false)
    (hbefore : ∀ b ∈ before, isSpaceByte b = true) (hafter : ∀ b ∈ after, isSpaceByte b = true)
    (hq : isQuoteByte q = true) (hcontent : q ∉ content) (rest : List UInt8) :
    attribute? b (key ++ (before ++ 0x3D :: (after ++ q :: (content ++ q :: rest)))) =
      some ⟨b :: key, content, rest⟩ := by
  have hpos : ∀ b ∈ key, (!(decide (b = 0x3D) || isSpaceByte b)) = true := by
    intro b hb
    simp [hkey b hb]
  -- The name ends at the first space behind it, or else at the equals sign.
  have hend : ∀ s, (before ++ 0x3D :: s).takeWhile
      (fun b => !(decide (b = 0x3D) || isSpaceByte b)) = [] ∧
      (before ++ 0x3D :: s).dropWhile (fun b => !(decide (b = 0x3D) || isSpaceByte b)) =
        before ++ 0x3D :: s := by
    intro s
    cases before with
    | nil => simp
    | cons c before => simp [hbefore c List.mem_cons_self]
  unfold attribute?
  dsimp only
  rw [List.dropWhile_append_of_pos hpos, List.takeWhile_append_of_pos hpos, (hend _).1, (hend _).2,
    dropWhile_isSpaceByte_append hbefore rfl]
  dsimp only
  rw [if_pos rfl, dropWhile_isSpaceByte_append hafter (isSpaceByte_eq_false_of_isQuoteByte hq),
    quotedValue?, if_pos hq, cutAt_singleton_eq_some_iff.2 ⟨rfl, hcontent⟩, List.append_nil]
  rfl

theorem readAttributes_of_forall {s : List UInt8} (h : ∀ b ∈ s, isSpaceByte b = true)
    (d : Dictionary String) : readAttributes d s = .ok d := by
  have hs : s.dropWhile isSpaceByte = [] := by
    rw [← List.append_nil s, List.dropWhile_append_of_pos h, List.dropWhile_nil]
  rw [readAttributes]
  split
  · rfl
  · next hs' => exact absurd (hs.symm.trans hs') (List.cons_ne_nil _ _).symm

theorem readAttributes_of_attribute? {d d' : Dictionary String} {s t : List UInt8} {b : UInt8}
    {a : Attribute} (hs : s.dropWhile isSpaceByte = b :: t) (ha : attribute? b t = some a)
    (hd : addAttribute d a = .ok d') : readAttributes d s = readAttributes d' a.rest := by
  rw [readAttributes]
  split
  · next hs' => exact absurd (hs.symm.trans hs') (List.cons_ne_nil _ _)
  · next b' t' hs' =>
    obtain ⟨rfl, rfl⟩ := List.cons.inj (hs.symm.trans hs')
    split
    · next ha' => exact absurd (ha.symm.trans ha') (Option.some_ne_none _)
    · next a' ha' =>
      obtain rfl := Option.some.inj (ha.symm.trans ha')
      rw [hd]

/-- An attribute with a new name goes to the end. -/
theorem exists_addAttribute {d : Dictionary String} {a : Attribute} {name value : String}
    (hname : Utf8.decode? a.name = some name.toList) (hvalue : textOfBytes? a.value = some value)
    (hnew : name ∉ d.entries.map Prod.fst) :
    ∃ d', addAttribute d a = .ok d' ∧ d'.entries = d.entries ++ [(name, value)] := by
  have hcontains : d.contains name = false := by
    rw [← Bool.not_eq_true, Dictionary.contains_iff]
    exact hnew
  refine ⟨d.insert name value, ?_, Dictionary.put_of_not_mem hnew⟩
  simp [addAttribute, hname, hvalue, hcontains]

/-- Attributes with different names are read in order, after those read before them. -/
theorem AttributeSpelling.exists_readAttributes {attributes : List (String × String)}
    {s : List UInt8} (h : AttributeSpelling attributes s) {d : Dictionary String}
    (hnodup : ((d.entries ++ attributes).map Prod.fst).Nodup) :
    ∃ d', readAttributes d s = .ok d' ∧ d'.entries = d.entries ++ attributes := by
  induction h generalizing d with
  | nil hgap => exact ⟨d, readAttributes_of_forall hgap d, (List.append_nil _).symm⟩
  | @cons name value attributes q gap key before after content rest hgap hkey_ne hkey hname hbefore
      hafter hq hcontent hvalue _ ih =>
    obtain ⟨b, key, rfl⟩ := List.exists_cons_of_ne_nil hkey_ne
    obtain ⟨hb, hkey⟩ := List.forall_mem_cons.1 hkey
    have hnew : name ∉ d.entries.map Prod.fst := by
      rw [List.map_append, List.map_cons, List.nodup_append] at hnodup
      intro hmem
      exact hnodup.2.2 name hmem name List.mem_cons_self rfl
    have hnext : ∃ d₁, addAttribute d ⟨b :: key, content, rest⟩ = .ok d₁ ∧
        d₁.entries = d.entries ++ [(name, value)] := exists_addAttribute hname hvalue hnew
    obtain ⟨d₁, hd₁, hentries₁⟩ := hnext
    have hstep := readAttributes_of_attribute?
      (dropWhile_isSpaceByte_append hgap hb.2 _)
      (attribute?_append hkey hbefore hafter hq hcontent rest) hd₁
    rw [List.append_cons, ← hentries₁] at hnodup
    obtain ⟨d₂, hd₂, hentries₂⟩ := ih hnodup
    refine ⟨d₂, hstep.trans hd₂, ?_⟩
    rw [hentries₂, hentries₁, List.append_assoc, List.singleton_append]

/-! ### The whole tag -/

/-- The full name of an element is its own name, or has a prefix before that. -/
def IsFullName (fullName name : List UInt8) : Prop :=
  (fullName = name ∧ 0x3A ∉ name) ∨ ∃ before, 0x3A ∉ before ∧ fullName = before ++ 0x3A :: name

/-- The bytes spell the tag: its name, and its attributes after a space. -/
inductive Spelling (tag : Tag) : List UInt8 → Prop
  | mk {full name s : List UInt8} (hfull : ∀ b ∈ full, isSpaceByte b = false)
      (hname : IsFullName full name) (hkind : Utf8.decode? name = some tag.kind.toList)
      (hs : ∀ b ∈ s.head?, isSpaceByte b = true)
      (hattributes : AttributeSpelling tag.attributes.entries s) : Spelling tag (full ++ s)

theorem localName_eq {full name : List UInt8} (h : IsFullName full name) :
    localName full = name := by
  rw [localName]
  rcases h with ⟨rfl, hname⟩ | ⟨before, hbefore, rfl⟩
  · rw [cutAt_singleton_eq_none_iff.2 hname]
  · rw [cutAt_singleton_eq_some_iff.2 ⟨rfl, hbefore⟩]

/-- What spells a tag is read as this tag. -/
theorem read_of_spelling {tag : Tag} {content : List UInt8} (h : Spelling tag content) :
    read content = .ok tag := by
  cases h with
  | @mk full name s hfull hname hkind hs hattributes =>
    have hpos : ∀ b ∈ full, (!isSpaceByte b) = true := by
      intro b hb
      simp [hfull b hb]
    have hend : s.takeWhile (fun b => !isSpaceByte b) = [] ∧
        s.dropWhile (fun b => !isSpaceByte b) = s := by
      cases s with
      | nil => exact ⟨rfl, rfl⟩
      | cons b s => simp [hs b rfl]
    obtain ⟨d, hd, hentries⟩ := hattributes.exists_readAttributes
      (d := Dictionary.empty) tag.attributes.nodup
    obtain rfl := Dictionary.eq_of_entries_eq (e := tag.attributes) hentries
    rw [read, fullName, List.takeWhile_append_of_pos hpos, List.dropWhile_append_of_pos hpos,
      hend.1, hend.2, List.append_nil, localName_eq hname, hkind, hd]
    simp [Except.map]

end Tag

end Markup

end ClassDiagram
