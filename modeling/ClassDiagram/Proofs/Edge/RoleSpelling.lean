import ClassDiagram.Proofs.Edge.Role

/-!
# Spellings of roles

A role is spelled as its stereotype in guillemets, its name and its type behind a colon, with white
space around each of them (`Role.Spelling`).  Guillemets close where they are first closed, and the
type begins behind the first colon of what is left.  So a role is read back from its spellings if
its stereotype neither has closing guillemets nor ends like them, and its name has no colon
(`Role.IsClear`); its type may have both, and its stereotype colons.

White space around a part moves no cut, since no cut is made at white space: what is cut at stands
in a text if and only if it stands in the trim of the text.  `Role.namesMember_of_spelling` follows
the first cut and `Role.namesRole_of_spelling` the second one.
-/

namespace ClassDiagram

open Text Stereotype

/-! ### White space around a part -/

/-- The text is the part `s` with white space around it. -/
inductive Text.Padded (s : String) : List Char → Prop
  | intro {front back : List Char} (hfront : isBlank front = true) (hback : isBlank back = true) :
      Padded s (front ++ s.toList ++ back)

namespace Text.Padded

variable {s : String} {t : List Char}

theorem trim_eq (h : Padded s t) (hs : trimmed s = s) : trim t = s.toList := by
  obtain ⟨hfront, hback⟩ := h
  rw [trim_append_isBlank hback, trim_append_of_isBlank hfront, ← toList_trimmed, hs]

theorem ofList_trim (h : Padded s t) (hs : trimmed s = s) : String.ofList (trim t) = s := by
  rw [h.trim_eq hs, String.ofList_toList]

/-- Guillemets that stand behind a part are the first ones if the part has none itself and does not
end like them. -/
theorem firstCut (h : Padded s t) (hs : trimmed s = s) (hclosed : ¬ ">>".toList <:+: s.toList)
    (hlast : s.toList.getLast? ≠ some '>') (rest : List Char) :
    FirstCut ">>".toList (t ++ ">>".toList ++ rest) t rest := by
  have ht : trim t = s.toList := h.trim_eq hs
  refine firstCut_pair ?_ ?_ rest
  · intro hpair
    exact hclosed (ht ▸ isInfix_trim_of_isInfix (by decide) (by decide) hpair)
  · intro hend
    exact hlast (ht ▸ getLast?_trim_of_getLast? (by decide) hend)

end Text.Padded

/-! ### Roles -/

namespace Role

/-- The stereotype of a role in guillemets, or nothing. -/
inductive MarkSpelling : Option String → List Char → Prop
  | marked {stereotype : String} {front s : List Char} (hfront : isBlank front = true)
      (hs : Padded stereotype s) :
      MarkSpelling (some stereotype) (front ++ "<<".toList ++ s ++ ">>".toList)
  | unmarked : MarkSpelling none []

/-- The type of a role behind a colon, or nothing. -/
inductive TypeSpelling : Option String → List Char → Prop
  | typed {type : String} {s : List Char} (hs : Padded type s) :
      TypeSpelling (some type) (':' :: s)
  | untyped : TypeSpelling none []

/-- The text is the stereotype, the name and the type of the role in this order, with white space
around each of them. -/
inductive Spelling (r : Role) : List Char → Prop
  | intro {mark name type : List Char} (hmark : MarkSpelling r.stereotype mark)
      (hname : Padded r.name name) (htype : TypeSpelling r.type type) :
      Spelling r (mark ++ name ++ type)

/-- No part of the role has white space at its ends, or can be taken for what separates them. -/
structure IsClear (r : Role) : Prop where
  trimmed_stereotype : ∀ w ∈ r.stereotype, trimmed w = w
  not_isInfix_stereotype : ∀ w ∈ r.stereotype, ¬ ">>".toList <:+: w.toList
  getLast?_stereotype : ∀ w ∈ r.stereotype, w.toList.getLast? ≠ some '>'
  trimmed_name : trimmed r.name = r.name
  not_mem_name : ':' ∉ r.name.toList
  not_isPrefix_name : r.stereotype = none → ¬ "<<".toList <+: r.name.toList
  trimmed_type : ∀ t ∈ r.type, trimmed t = t
  type_ne : ∀ t ∈ r.type, t ≠ ""

variable {r : Role} {name type : List Char}

/-- The name and the type are read back from what is left of a role without its stereotype. -/
theorem namesRole_of_spelling (hr : r.IsClear) (hname : Padded r.name name)
    (htype : TypeSpelling r.type type) :
    NamesRole (String.ofList (trim (name ++ type))) r.name r.type := by
  have hread := hname.ofList_trim hr.trimmed_name
  have hcolon : ':' ∉ name := by
    rw [← mem_trim_iff (by decide), hname.trim_eq hr.trimmed_name]
    exact hr.not_mem_name
  generalize hdeclared : r.type = declared at htype ⊢
  cases htype with
  | untyped =>
    have hbare : NamesRole r.name (trimmed r.name) none := .bare hr.not_mem_name
    rw [hr.trimmed_name] at hbare
    rwa [List.append_nil, hread]
  | @typed t s hs =>
    have hreadType := hs.ofList_trim (hr.trimmed_type t hdeclared)
    have hcut : (String.ofList (trim (name ++ ':' :: s))).toList =
        name.dropWhile isSpace ++ ':' :: s.rdropWhile isSpace := by
      rw [String.toList_ofList, trim_append_cons (by decide)]
    have hbefore : ':' ∉ name.dropWhile isSpace := fun h =>
      hcolon ((List.dropWhile_sublist _).mem h)
    have hblank : isBlank (s.rdropWhile isSpace) = false := by
      rw [isBlank_eq_false_iff, trim_rdropWhile]
      intro hnil
      exact hr.type_ne t hdeclared (by rw [← hreadType, hnil])
    have htyped := NamesRole.typed hcut hbefore hblank
    rwa [trim_dropWhile, trim_rdropWhile, hread, hreadType] at htyped

/-- Without a stereotype, what is left begins with no guillemets. -/
theorem not_isPrefix_trim (hr : r.IsClear) (hnone : r.stereotype = none)
    (hname : Padded r.name name) (htype : TypeSpelling r.type type) :
    ¬ "<<".toList <+: trim (name ++ type) := by
  have hnot := hr.not_isPrefix_name hnone
  rw [← hname.trim_eq hr.trimmed_name] at hnot
  generalize r.type = declared at htype
  cases htype with
  | untyped => rwa [List.append_nil]
  | @typed t s hs =>
    -- A colon is no guillemet, so both guillemets would have to stand in the name.
    rw [trim_append_cons (by decide)]
    rintro ⟨rest, hrest⟩
    rw [trim] at hnot
    generalize name.dropWhile isSpace = front at hrest hnot
    obtain _ | ⟨a, _ | ⟨b, front⟩⟩ := front
    · simp at hrest
    · simp at hrest
    · obtain ⟨rfl, rfl, -⟩ : '<' = a ∧ '<' = b ∧ _ := by simpa using hrest
      refine hnot ⟨front.rdropWhile isSpace, ?_⟩
      exact (rdropWhile_append_cons (s := ['<']) (by decide)).symm

/-- A text that begins with a stereotype in guillemets is trimmed behind them. -/
theorem trim_marked {front : List Char} (hfront : isBlank front = true) (s rest : List Char) :
    trim (front ++ "<<".toList ++ s ++ ">>".toList ++ rest) =
      "<<".toList ++ (s ++ ">>".toList ++ rest.rdropWhile isSpace) := by
  have hword : front ++ "<<".toList ++ s ++ ">>".toList ++ rest =
      front ++ '<' :: ('<' :: s ++ ['>'] ++ '>' :: rest) := by simp
  rw [hword, trim_append_word (by decide) (by decide),
    List.dropWhile_eq_nil_iff.2 (isBlank_iff.1 hfront)]
  simp

/-- The stereotype is read back, and the name and the type are left. -/
theorem namesMember_of_spelling {text : String} {mark : List Char} (hr : r.IsClear)
    (hmark : MarkSpelling r.stereotype mark) (hname : Padded r.name name)
    (htype : TypeSpelling r.type type) (htext : text.toList = mark ++ name ++ type) :
    NamesMember text ⟨r.stereotype, String.ofList (trim (name ++ type))⟩ := by
  rw [List.append_assoc] at htext
  generalize hstereotype : r.stereotype = stereotype at hmark ⊢
  cases hmark with
  | unmarked =>
    have hnot := not_isPrefix_trim hr hstereotype hname htype
    rw [List.nil_append] at htext
    have hplain : NamesMember text ⟨none, trimmed text⟩ := by
      refine .plain fun stereotype rest hwhole => hnot ?_
      rw [← htext, hwhole]
      exact List.prefix_append _ _
    rwa [trimmed, htext] at hplain
  | @marked w front s hfront hs =>
    have htrimmed := hr.trimmed_stereotype w hstereotype
    have hfirst := hs.firstCut htrimmed (hr.not_isInfix_stereotype w hstereotype)
      (hr.getLast?_stereotype w hstereotype) ((name ++ type).rdropWhile isSpace)
    have hmarked := NamesMember.marked (htext ▸ trim_marked hfront s _) hfirst
    rwa [hs.ofList_trim htrimmed, trim_rdropWhile] at hmarked

/-- A role is read back from all its spellings. -/
theorem isReadFrom_of_spelling (hr : r.IsClear) {text : String} (h : r.Spelling text.toList) :
    r.IsReadFrom text := by
  generalize htext : text.toList = s at h
  obtain ⟨hmark, hname, htype⟩ := h
  exact ⟨_, namesMember_of_spelling hr hmark hname htype htext,
    namesRole_of_spelling hr hname htype⟩

/-- A role is split into its parts again, however it is spelled: first the stereotype is taken off,
and then the name is cut from the type. -/
theorem split_of_spelling (hr : r.IsClear) {text : String} (h : r.Spelling text.toList) :
    (splitMemberName text).stereotype = r.stereotype ∧
      splitRoleType (splitMemberName text).name = (r.name, r.type) := by
  obtain ⟨rest, hmember, hrole⟩ := isReadFrom_of_spelling hr h
  rw [splitMemberName_eq_iff.2 hmember]
  exact ⟨rfl, splitRoleType_eq_iff.2 hrole⟩

/-- The stereotype has a colon and opening guillemets, the type a colon and brackets. -/
theorem split_of_spelling_nestedMarks :
    (splitMemberName " << a:>b<< >> >x :A => (B: C) ").stereotype = some "a:>b<<" ∧
      splitRoleType (splitMemberName " << a:>b<< >> >x :A => (B: C) ").name =
        (">x", some "A => (B: C)") := by
  have hmark : MarkSpelling (some "a:>b<<")
      (" ".toList ++ "<<".toList ++ (" ".toList ++ "a:>b<<".toList ++ " ".toList) ++
        ">>".toList) :=
    .marked (by decide) (.intro (by decide) (by decide))
  have hname : Padded ">x" (" ".toList ++ ">x".toList ++ " ".toList) :=
    .intro (by decide) (by decide)
  have htype : TypeSpelling (some "A => (B: C)")
      (':' :: ("".toList ++ "A => (B: C)".toList ++ " ".toList)) :=
    .typed (.intro (by decide) (by decide))
  have hclear : IsClear ⟨some "a:>b<<", ">x", some "A => (B: C)"⟩ := by
    constructor <;> decide
  exact split_of_spelling hclear (.intro (r := ⟨_, _, _⟩) hmark hname htype)

end Role

end ClassDiagram
