import ClassDiagram.Model.Imports
import ClassDiagram.Proofs.Text.Cut
import ClassDiagram.Proofs.Text.Pieces
import ClassDiagram.Proofs.Text.Trim
import Mathlib.Data.Finset.Card

/-!
# Texts of import tables

A text is read line by line.  `IsAccepted` says which lines hold a full name, and `nameOn` which
name that is, without the trimming in between that the reading does (`nameOfLine?_eq`).  A table has
the names of all accepted lines under their last segments, a later one in the place of an earlier
one: what it has under a name is told by the last line that declares it
(`fullName?_ofText_eq_some_iff`), from which its size and the packages follow.
-/

namespace ClassDiagram.ImportTable

open Text

/-! ### Segments of full names -/

/-- The last of the segments of a full name, which are separated by dots. -/
def lastSegment (full : String) : String :=
  String.ofList ((pieces (· == '.') full.toList).getLast (pieces_ne_nil _ _))

theorem dot_not_mem_lastSegment (full : String) : '.' ∉ (lastSegment full).toList := by
  rw [lastSegment, String.toList_ofList]
  intro hdot
  have hfalse := eq_false_of_mem_pieces (List.getLast_mem (pieces_ne_nil _ _)) '.' hdot
  exact absurd hfalse (by decide)

theorem beq_eq_false_of_not_mem {x : Char} {s : List Char} (h : x ∉ s) :
    ∀ c ∈ s, (c == x) = false := by
  intro c hc
  rw [beq_eq_false_iff_ne]
  rintro rfl
  exact h hc

theorem lastSegment_append (package : String) {short : String} (h : '.' ∉ short.toList) :
    lastSegment (package ++ "." ++ short) = short := by
  have hlist : (package ++ "." ++ short).toList = package.toList ++ '.' :: short.toList := by simp
  rw [lastSegment]
  simp only [hlist, getLast_pieces_append_cons (p := (· == '.')) (a := '.') rfl
    (beq_eq_false_of_not_mem h), String.ofList_toList]

theorem shortName_eq_lastSegment (full : String) : shortName full = lastSegment full := by
  rw [shortName]
  split
  · next package short hcut =>
    obtain ⟨hfull, hnot⟩ := cutAtLast_eq_some_iff.1 hcut
    rw [lastSegment]
    simp only [hfull, getLast_pieces_append_cons (p := (· == '.')) (a := '.') rfl
      (beq_eq_false_of_not_mem hnot)]
  · next hcut =>
    have hnot := cutAtLast_eq_none_iff.1 hcut
    rw [lastSegment, getLast_pieces_of_forall (beq_eq_false_of_not_mem hnot), String.ofList_toList]

theorem toList_append_dot (package short : String) :
    (package ++ "." ++ short).toList = package.toList ++ '.' :: short.toList := by
  simp

/-- The package of a full name is what stands before the dot before its last segment. -/
theorem packageOf?_eq_some_iff {full package : String} :
    packageOf? full = some package ↔
      package ≠ "" ∧ full = package ++ "." ++ lastSegment full := by
  constructor
  · intro h
    rw [packageOf?] at h
    split at h
    · next front short hcut =>
      obtain ⟨hfull, hnot⟩ := cutAtLast_eq_some_iff.1 hcut
      obtain rfl : full = String.ofList front ++ "." ++ String.ofList short := by
        rw [← String.toList_inj, toList_append_dot, hfull]
        simp
      split at h
      · cases h
      · next hne =>
        obtain rfl := Option.some.inj h
        refine ⟨by simpa using hne, ?_⟩
        rw [lastSegment_append _ (by rwa [String.toList_ofList])]
    · cases h
  · rintro ⟨hne, hfull⟩
    have hcut : cutAtLast '.' full.toList = some (package.toList, (lastSegment full).toList) := by
      refine cutAtLast_eq_some_iff.2 ⟨?_, dot_not_mem_lastSegment full⟩
      conv_lhs => rw [hfull]
      rw [toList_append_dot]
    have hnil : package.toList.isEmpty = false := by simpa using hne
    rw [packageOf?, hcut]
    simp [hnil]

/-! ### Names on lines -/

/-- The text without `w` at its beginning, where it begins with `w`. -/
def withoutFront (w s : List Char) : List Char := if w <+: s then s.drop w.length else s

/-- The text without `w` at its end, where it ends with `w`. -/
def withoutBack (w s : List Char) : List Char :=
  if w <:+ s then s.take (s.length - w.length) else s

/-- The name on a line: its trim without `import` before it and a semicolon behind it, trimmed. -/
def nameOn (line : List Char) : String :=
  String.ofList (trim (withoutBack ";".toList (withoutFront "import ".toList (trim line))))

/-- A line without content: it is blank or begins like a comment. -/
inductive IsRemark (line : List Char) : Prop
  | blank (h : isBlank line = true)
  | hash (h : "#".toList <+: trim line)
  | slashes (h : "//".toList <+: trim line)

/-- The line has content, and there is a name on it. -/
structure IsAccepted (line : List Char) : Prop where
  not_isRemark : ¬ IsRemark line
  nameOn_ne : nameOn line ≠ ""

theorem withoutFront_append (w s : List Char) : withoutFront w (w ++ s) = s := by
  rw [withoutFront, if_pos (List.prefix_append w s), List.drop_left]

theorem withoutBack_append (w s : List Char) : withoutBack w (s ++ w) = s := by
  rw [withoutBack, if_pos (List.suffix_append s w), List.length_append, Nat.add_sub_cancel,
    List.take_left]

theorem getD_isPrefixOf? (w s : List Char) : (w.isPrefixOf? s).getD s = withoutFront w s := by
  cases hs : w.isPrefixOf? s with
  | some rest =>
    obtain rfl := List.isPrefixOf?_eq_some_iff_append_eq.1 hs
    rw [withoutFront_append, Option.getD_some]
  | none =>
    have hnot : ¬ w <+: s := by
      rintro ⟨rest, rfl⟩
      rw [List.isPrefixOf?_eq_some_iff_append_eq.2 rfl] at hs
      cases hs
    rw [withoutFront, if_neg hnot, Option.getD_none]

theorem getD_isSuffixOf? (w s : List Char) : (w.isSuffixOf? s).getD s = withoutBack w s := by
  rw [List.isSuffixOf?]
  cases hs : w.reverse.isPrefixOf? s.reverse with
  | some rest =>
    have hrest := congrArg List.reverse (List.isPrefixOf?_eq_some_iff_append_eq.1 hs)
    rw [List.reverse_append, List.reverse_reverse, List.reverse_reverse] at hrest
    rw [← hrest, withoutBack_append, Option.map_some, Option.getD_some]
  | none =>
    have hnot : ¬ w <:+ s := by
      rintro ⟨rest, rfl⟩
      rw [List.reverse_append, List.isPrefixOf?_eq_some_iff_append_eq.2 rfl] at hs
      cases hs
    rw [withoutBack, if_neg hnot, Option.map_none, Option.getD_none]

/-- Where a text does not end with white space, it does not matter whether it is trimmed before a
character is taken from its end. -/
theorem trim_withoutBack_trim {s : List Char} {x : Char} (hx : isSpace x = false)
    (hlast : ∀ c, s.getLast? = some c → isSpace c = false) :
    trim (withoutBack [x] (trim s)) = trim (withoutBack [x] s) := by
  by_cases hsuffix : [x] <:+ s
  · obtain ⟨front, rfl⟩ := hsuffix
    rw [trim_append_cons hx, List.rdropWhile_nil, withoutBack_append, withoutBack_append,
      trim_dropWhile]
  · have htrim : ¬ [x] <:+ trim s := by
      rintro ⟨front, hfront⟩
      -- Both texts end with the same character.
      cases hs : s.getLast? with
      | none =>
        rw [List.getLast?_eq_none_iff] at hs
        rw [hs] at hfront
        simp at hfront
      | some c =>
        have hc := getLast?_trim_of_getLast? (hlast c hs) hs
        rw [← hfront, List.getLast?_concat, Option.some.injEq] at hc
        obtain ⟨t, rfl⟩ := List.getLast?_eq_some_iff.1 hs
        exact hsuffix ⟨t, by rw [hc]⟩
    rw [withoutBack, if_neg htrim, withoutBack, if_neg hsuffix, trim_trim]

theorem isSpace_eq_false_of_withoutFront {w line : List Char} {c : Char}
    (h : (withoutFront w (trim line)).getLast? = some c) : isSpace c = false := by
  rw [withoutFront] at h
  split at h
  · next hprefix =>
    obtain ⟨rest, hrest⟩ := hprefix
    rw [← hrest, List.drop_left] at h
    obtain ⟨front, rfl⟩ := List.getLast?_eq_some_iff.1 h
    refine getLast?_trim (s := line) ?_
    rw [← hrest, ← List.append_assoc, List.getLast?_concat]
  · exact getLast?_trim h

theorem isRemark_iff {line : List Char} :
    IsRemark line ↔ ((trim line).isEmpty || "#".toList.isPrefixOf (trim line) ||
      "//".toList.isPrefixOf (trim line)) = true := by
  rw [Bool.or_eq_true, Bool.or_eq_true, List.isEmpty_iff, trim_eq_nil_iff,
    List.isPrefixOf_iff_prefix, List.isPrefixOf_iff_prefix]
  constructor
  · rintro (h | h | h)
    · exact .inl (.inl h)
    · exact .inl (.inr h)
    · exact .inr h
  · rintro ((h | h) | h)
    · exact .blank h
    · exact .hash h
    · exact .slashes h

instance (line : List Char) : Decidable (IsRemark line) := decidable_of_iff _ isRemark_iff.symm

instance (line : List Char) : Decidable (IsAccepted line) :=
  decidable_of_iff (¬ IsRemark line ∧ nameOn line ≠ "")
    ⟨fun h => ⟨h.1, h.2⟩, fun h => ⟨h.not_isRemark, h.nameOn_ne⟩⟩

/-- The reading of a line gives the name on it if it is accepted, and nothing else. -/
theorem nameOfLine?_eq (line : List Char) :
    nameOfLine? line = if IsAccepted line then some (nameOn line) else none := by
  have hname : trim (withoutBack ";".toList (trim (withoutFront "import ".toList (trim line)))) =
      trim (withoutBack ";".toList (withoutFront "import ".toList (trim line))) :=
    trim_withoutBack_trim (by decide) fun c hc => isSpace_eq_false_of_withoutFront hc
  have hne : trim (withoutBack ";".toList (withoutFront "import ".toList (trim line))) = [] ↔
      nameOn line = "" := by
    rw [nameOn, String.ofList_eq_empty_iff]
  rw [nameOfLine?]
  dsimp only
  rw [getD_isPrefixOf?, getD_isSuffixOf?, hname]
  by_cases hremark : IsRemark line
  · rw [if_pos (isRemark_iff.1 hremark), if_neg fun h => h.not_isRemark hremark]
  · rw [if_neg (mt isRemark_iff.2 hremark)]
    by_cases hempty : nameOn line = ""
    · rw [if_pos (List.isEmpty_iff.2 (hne.2 hempty)), if_neg fun h => h.nameOn_ne hempty]
    · rw [if_neg (mt List.isEmpty_iff.1 (mt hne.1 hempty)), if_pos ⟨hremark, hempty⟩]
      rfl

/-! ### What the lines of a text declare -/

/-- The lines of a text.  A carriage return before a line feed is white space at the end of its
line. -/
def lines (text : String) : List (List Char) := pieces (· == '\n') text.toList

/-- The line holds a full name for the class `n`. -/
structure Declares (line : List Char) (n : String) : Prop where
  isAccepted : IsAccepted line
  lastSegment_eq : lastSegment (nameOn line) = n

instance (line : List Char) (n : String) : Decidable (Declares line n) :=
  decidable_of_iff (IsAccepted line ∧ lastSegment (nameOn line) = n)
    ⟨fun h => ⟨h.1, h.2⟩, fun h => ⟨h.isAccepted, h.lastSegment_eq⟩⟩

/-- The last line that declares the class `n` holds the full name `full`. -/
inductive DeclaresLast (n full : String) : List (List Char) → Prop
  | intro {before after : List (List Char)} {line : List Char} (hline : Declares line n)
      (hname : nameOn line = full) (hlast : ∀ l ∈ after, ¬ Declares l n) :
      DeclaresLast n full (before ++ line :: after)

variable {text n full package : String}

theorem fullName?_add (table : ImportTable) (full n : String) :
    (table.add full).fullName? n =
      if n = lastSegment full then some full else table.fullName? n := by
  rw [add, fullName?, Dictionary.find?_insert, shortName_eq_lastSegment]
  rfl

theorem fullName?_foldl_add (ls : List (List Char)) (n : String) :
    ((ls.filterMap nameOfLine?).foldl add Dictionary.empty).fullName? n =
      (ls.reverse.find? fun line => Declares line n).map nameOn := by
  -- By induction from the end: the last line counts before all others.
  induction ls using List.reverseRecOn with
  | nil => rfl
  | append_singleton ls line ih =>
    rw [List.filterMap_append, List.foldl_append, List.reverse_append, List.reverse_singleton,
      List.singleton_append, List.filterMap_cons, nameOfLine?_eq, List.filterMap_nil]
    by_cases haccepted : IsAccepted line
    · rw [if_pos haccepted, List.foldl_cons, List.foldl_nil, fullName?_add]
      by_cases hn : n = lastSegment (nameOn line)
      · have hdeclares : Declares line n := ⟨haccepted, hn.symm⟩
        rw [if_pos hn, List.find?_cons_of_pos (by simpa using hdeclares), Option.map_some]
      · rw [if_neg hn, ih, List.find?_cons_of_neg]
        simpa using fun h : Declares line n => hn h.lastSegment_eq.symm
    · rw [if_neg haccepted, List.foldl_nil, ih, List.find?_cons_of_neg]
      simpa using fun h : Declares line n => haccepted h.isAccepted

theorem fullName?_ofText (text n : String) :
    (ofText text).fullName? n =
      ((lines text).reverse.find? fun line => Declares line n).map nameOn :=
  fullName?_foldl_add (lines text) n

/-- What a table has under a name is on the last line that declares it. -/
theorem fullName?_ofText_eq_some_iff :
    (ofText text).fullName? n = some full ↔ DeclaresLast n full (lines text) := by
  rw [fullName?_ofText, Option.map_eq_some_iff]
  simp only [List.find?_eq_some_iff_append, decide_eq_true_eq, Bool.not_eq_true',
    decide_eq_false_iff_not]
  constructor
  · rintro ⟨line, ⟨hline, front, back, hlines, hfront⟩, hname⟩
    have hlines' := congrArg List.reverse hlines
    rw [List.reverse_reverse, List.reverse_append, List.reverse_cons, List.append_assoc,
      List.singleton_append] at hlines'
    rw [hlines']
    exact .intro hline hname fun l hl => hfront l (List.mem_reverse.1 hl)
  · intro h
    generalize lines text = ls at h
    obtain @⟨before, after, line, hline, hname, hlast⟩ := h
    refine ⟨line, ⟨hline, after.reverse, before.reverse, ?_, ?_⟩, hname⟩
    · rw [List.reverse_append, List.reverse_cons, List.append_assoc, List.singleton_append]
    · exact fun l hl => hlast l (List.mem_reverse.1 hl)

theorem DeclaresLast.lastSegment_eq {ls : List (List Char)} (h : DeclaresLast n full ls) :
    lastSegment full = n := by
  obtain ⟨hline, rfl, -⟩ := h
  exact hline.lastSegment_eq

/-- A name is unknown just when no line declares it. -/
theorem fullName?_ofText_eq_none_iff :
    (ofText text).fullName? n = none ↔ ∀ line ∈ lines text, ¬ Declares line n := by
  rw [fullName?_ofText, Option.map_eq_none_iff, List.find?_eq_none]
  simp

/-! ### Sizes and packages -/

theorem mem_names_ofText_iff :
    n ∈ (ofText text).names ↔ ∃ line ∈ lines text, Declares line n := by
  rw [← Dictionary.contains_iff, Dictionary.contains, Option.isSome_iff_ne_none]
  have hnone : (ofText text).find? n = none ↔ ∀ line ∈ lines text, ¬ Declares line n :=
    fullName?_ofText_eq_none_iff
  rw [ne_eq, hnone]
  simp

/-- A table has as many names as there are last segments of names on accepted lines. -/
theorem size_ofText (text : String) :
    (ofText text).size =
      (((lines text).filter fun line => IsAccepted line).map
        fun line => lastSegment (nameOn line)).toFinset.card := by
  have hset : (ofText text).names.toFinset =
      (((lines text).filter fun line => IsAccepted line).map
        fun line => lastSegment (nameOn line)).toFinset := by
    ext n
    rw [List.mem_toFinset, mem_names_ofText_iff, List.mem_toFinset, List.mem_map]
    simp only [List.mem_filter, decide_eq_true_eq, and_assoc]
    exact exists_congr fun line => and_congr_right fun _ =>
      ⟨fun h => ⟨h.isAccepted, h.lastSegment_eq⟩, fun h => ⟨h.1, h.2⟩⟩
  have hnodup : (ofText text).names.Nodup := (ofText text).nodup
  rw [← hset, List.toFinset_card_of_nodup hnodup, Dictionary.names, List.length_map]
  rfl

theorem package?_ofText_eq_some_iff :
    (ofText text).package? n = some package ↔
      package ≠ "" ∧ (ofText text).fullName? n = some (package ++ "." ++ n) := by
  rw [package?, Option.bind_eq_some_iff]
  constructor
  · rintro ⟨full, hfull, hpackage⟩
    obtain ⟨hne, heq⟩ := packageOf?_eq_some_iff.1 hpackage
    rw [(fullName?_ofText_eq_some_iff.1 hfull).lastSegment_eq] at heq
    exact ⟨hne, by rw [hfull, ← heq]⟩
  · rintro ⟨hne, hfull⟩
    have hsegment := (fullName?_ofText_eq_some_iff.1 hfull).lastSegment_eq
    exact ⟨_, hfull, packageOf?_eq_some_iff.2 ⟨hne, by rw [hsegment]⟩⟩

/-! ### Remarks between lines -/

/-- The second text has the lines of the first one, with remarks in between. -/
inductive Annotates : List (List Char) → List (List Char) → Prop
  | nil : Annotates [] []
  | line {ls ls' : List (List Char)} (line : List Char) (h : Annotates ls ls') :
      Annotates (line :: ls) (line :: ls')
  | remark {ls ls' : List (List Char)} {line : List Char} (hline : IsRemark line)
      (h : Annotates ls ls') : Annotates ls (line :: ls')

theorem Annotates.filterMap_eq {ls ls' : List (List Char)} (h : Annotates ls ls') :
    ls.filterMap nameOfLine? = ls'.filterMap nameOfLine? := by
  induction h with
  | nil => rfl
  | line line _ ih => rw [List.filterMap_cons, List.filterMap_cons, ih]
  | remark hline _ ih =>
    rw [List.filterMap_cons, nameOfLine?_eq, if_neg fun h => h.not_isRemark hline, ih]

/-- The table of a text tells of each class the name on the last line that declares it, it has one
entry for each class, and it knows a package where that name has one.  Remarks do not matter. -/
theorem ofText_exact (text : String) :
    (∀ n full, (ofText text).fullName? n = some full ↔ DeclaresLast n full (lines text)) ∧
      (∀ n, (ofText text).fullName? n = none ↔ ∀ line ∈ lines text, ¬ Declares line n) ∧
      (ofText text).size =
        (((lines text).filter fun line => IsAccepted line).map
          fun line => lastSegment (nameOn line)).toFinset.card ∧
      (∀ n package, (ofText text).package? n = some package ↔
        package ≠ "" ∧ (ofText text).fullName? n = some (package ++ "." ++ n)) ∧
      ∀ text', Annotates (lines text) (lines text') → ofText text' = ofText text := by
  refine ⟨fun n full => fullName?_ofText_eq_some_iff, fun n => fullName?_ofText_eq_none_iff,
    size_ofText text, fun n package => package?_ofText_eq_some_iff, fun text' h => ?_⟩
  have hnames : namesOfText text = namesOfText text' := h.filterMap_eq
  rw [ofText, ofText, hnames]

/-- A text with and without remarks. -/
theorem ofText_of_annotatedLines :
    Annotates (lines "import java.time.Instant;\n a.Odd;;\nb.Instant")
        (lines "\n# time\nimport java.time.Instant;\n a.Odd;;\n // other\nb.Instant") ∧
      ofText "\n# time\nimport java.time.Instant;\n a.Odd;;\n // other\nb.Instant" =
        ofText "import java.time.Instant;\n a.Odd;;\nb.Instant" := by
  have hlines : lines "import java.time.Instant;\n a.Odd;;\nb.Instant" =
      ["import java.time.Instant;".toList, " a.Odd;;".toList, "b.Instant".toList] := by decide
  have hlines' : lines "\n# time\nimport java.time.Instant;\n a.Odd;;\n // other\nb.Instant" =
      [[], "# time".toList, "import java.time.Instant;".toList, " a.Odd;;".toList,
        " // other".toList, "b.Instant".toList] := by decide
  have hannotates : Annotates (lines "import java.time.Instant;\n a.Odd;;\nb.Instant")
      (lines "\n# time\nimport java.time.Instant;\n a.Odd;;\n // other\nb.Instant") := by
    rw [hlines, hlines']
    refine .remark (.blank rfl) (.remark (.hash (by decide)) (.line _ (.line _ ?_)))
    exact .remark (.slashes (by decide)) (.line _ .nil)
  exact ⟨hannotates, (ofText_exact _).2.2.2.2 _ hannotates⟩

end ClassDiagram.ImportTable
