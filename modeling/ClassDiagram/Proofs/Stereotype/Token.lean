import ClassDiagram.Proofs.Text.Pieces
import ClassDiagram.Proofs.Text.Trim
import ClassDiagram.Stereotype.Token

/-!
# Decorated words

A word loses white space, guillemets and once more white space, each of them once and at both ends.
What is left has no white space at its ends, but it may have guillemets there again: those that were
parted from the outer ones by white space.  `IsRedecorated` says of a word that it is so decorated
inside its decoration, and this is what decides whether undecorating it a second time changes
anything (`undecorated_undecorated_eq_iff`).

Both ends of a word are treated alike (`undecoratedBy_reverse`).  So only the beginning has to be
looked at, where `markedTwice_iff` says which words are left with a guillemet.
-/

namespace ClassDiagram.Stereotype

open Text

/-! ### Words decorated inside their decoration -/

/-- White space follows the marks at the beginning of the text, and then another mark. -/
inductive MarkedTwice (mark : Char → Bool) : List Char → Prop
  | intro {marks gap rest : List Char} {c : Char} (hmarks : marks ≠ [])
      (hmark : ∀ a ∈ marks, mark a = true) (hgap : gap ≠ []) (hblank : isBlank gap = true)
      (hc : mark c = true) : MarkedTwice mark (marks ++ (gap ++ c :: rest))

/-- White space parts guillemets from others that stand further inside, at the beginning of the word
or at its end. -/
def IsRedecorated (word : List Char) : Prop :=
  MarkedTwice isOpeningMark (trim word) ∨ MarkedTwice isClosingMark (trim word).reverse

/-- The word without white space, without `p` at its beginning and `q` at its end, and once more
without white space. -/
def undecoratedBy (p q : Char → Bool) (word : List Char) : List Char :=
  trim (((trim word).dropWhile p).rdropWhile q)

theorem undecoratedBy_reverse (p q : Char → Bool) (word : List Char) :
    undecoratedBy p q word.reverse = (undecoratedBy q p word).reverse := by
  rw [undecoratedBy, undecoratedBy, ← trim_reverse, trim_reverse word, rdropWhile_dropWhile,
    List.rdropWhile_reverse, List.rdropWhile, List.reverse_reverse]

section

variable {p q : Char → Bool} (hspace : ∀ c, p c = true → isSpace c = false)
  (hq : ∀ c, p c = true → q c = false)

include hspace hq

/-- The inner mark of a word that is marked twice is left. -/
theorem MarkedTwice.exists_head? {word : List Char} (h : MarkedTwice p (trim word)) :
    ∃ c, (undecoratedBy p q word).head? = some c ∧ p c = true := by
  rw [undecoratedBy]
  generalize trim word = s at h
  obtain @⟨marks, gap, rest, c, -, hmark, hgap, hblank, hc⟩ := h
  have hfirst : (gap ++ c :: rest).dropWhile p = gap ++ c :: rest := by
    obtain ⟨b, gap, rfl⟩ := List.exists_cons_of_ne_nil hgap
    have hb := isBlank_iff.1 hblank b List.mem_cons_self
    refine List.dropWhile_cons_of_neg fun hpb => ?_
    rw [hspace b hpb] at hb
    cases hb
  have hleft : trim (c :: rest.rdropWhile q) = c :: (rest.rdropWhile q).rdropWhile isSpace :=
    trim_append_cons (l := []) (hspace c hc)
  refine ⟨c, ?_, hc⟩
  rw [List.dropWhile_append_of_pos hmark, hfirst, rdropWhile_append_cons (hq c hc),
    trim_append_of_isBlank hblank, hleft, List.head?_cons]

omit hspace hq in
/-- A mark that is left at the beginning of a word was parted from the marks before it. -/
theorem markedTwice_of_head? {word : List Char} {c : Char}
    (h : (undecoratedBy p q word).head? = some c) (hc : p c = true) :
    MarkedTwice p (trim word) := by
  rw [undecoratedBy] at h
  -- The word is made of the marks that were dropped, white space, the mark that is left, and the
  -- rest.
  obtain ⟨back, hback⟩ := List.rdropWhile_prefix q ((trim word).dropWhile p)
  obtain ⟨gap, b, hgap, hblank, -⟩ :=
    exists_eq_append_trim (((trim word).dropWhile p).rdropWhile q)
  obtain ⟨rest, hrest⟩ := List.head?_eq_some_iff.1 h
  rw [hrest] at hgap
  rw [hgap, eq_comm] at hback
  have hword : trim word = (trim word).takeWhile p ++ (gap ++ c :: (rest ++ b ++ back)) := by
    conv_lhs => rw [← List.takeWhile_append_dropWhile (p := p) (l := trim word), hback]
    simp
  have hne : gap ≠ [] := by
    rintro rfl
    have hnot := List.head?_dropWhile_not p (trim word)
    rw [hback] at hnot
    simp [hc] at hnot
  have hmarks : (trim word).takeWhile p ≠ [] := by
    intro hnil
    rw [hnil, List.nil_append] at hword
    obtain ⟨x, gap, rfl⟩ := List.exists_cons_of_ne_nil hne
    have hx := isBlank_iff.1 hblank x List.mem_cons_self
    rw [head?_trim (s := word) (c := x) (by rw [hword]; rfl)] at hx
    cases hx
  rw [hword]
  exact .intro hmarks (List.all_eq_true.1 List.all_takeWhile) hne hblank hc

/-- An undecorated word begins with a mark again just when it was marked twice. -/
theorem markedTwice_iff (word : List Char) :
    MarkedTwice p (trim word) ↔ ∃ c, (undecoratedBy p q word).head? = some c ∧ p c = true :=
  ⟨MarkedTwice.exists_head? hspace hq, fun ⟨_, hhead, hc⟩ => markedTwice_of_head? hhead hc⟩

end

/-! ### Undecorating twice -/

theorem undecorated_sublist (word : List Char) : (undecorated word).Sublist word := by
  have hleft := (List.dropWhile_sublist isOpeningMark).trans (trim_sublist word)
  exact (trim_sublist _).trans ((List.rdropWhile_prefix _ _).sublist.trans hleft)

theorem trim_undecorated (word : List Char) : trim (undecorated word) = undecorated word :=
  trim_trim _

theorem undecorated_eq_self_iff {t : List Char} (ht : trim t = t) :
    undecorated t = t ↔ (∀ c, t.head? = some c → isOpeningMark c = false) ∧
      ∀ c, t.getLast? = some c → isClosingMark c = false := by
  rw [undecorated, ht, dropEndWhile_eq_rdropWhile]
  constructor
  · intro h
    -- Nothing can have been dropped at either end.
    have hlength := congrArg List.length h
    have htrim := length_trim_le ((t.dropWhile isOpeningMark).rdropWhile isClosingMark)
    have hright := (List.rdropWhile_prefix isClosingMark (t.dropWhile isOpeningMark)).length_le
    have hleft : t.dropWhile isOpeningMark = t :=
      (List.dropWhile_sublist isOpeningMark).eq_of_length_le (by omega)
    rw [hleft] at hlength htrim hright
    have hright' : t.rdropWhile isClosingMark = t :=
      (List.rdropWhile_prefix isClosingMark t).sublist.eq_of_length_le (by omega)
    refine ⟨fun c hc => ?_, rdropWhile_eq_self_iff_getLast?.1 hright'⟩
    have hnot := List.head?_dropWhile_not isOpeningMark t
    rw [hleft, hc] at hnot
    simpa using hnot
  · rintro ⟨hhead, hlast⟩
    have hleft : t.dropWhile isOpeningMark = t := by
      cases t with
      | nil => rfl
      | cons c t => exact List.dropWhile_cons_of_neg (by simp [hhead c rfl])
    rw [hleft, rdropWhile_eq_self_iff_getLast?.2 hlast, ht]

/-- Undecorating a word a second time changes it just when it was decorated inside its
decoration. -/
theorem undecorated_undecorated_eq_iff (word : List Char) :
    undecorated (undecorated word) = undecorated word ↔ ¬ IsRedecorated word := by
  have hopening : ∀ c, isOpeningMark c = true → isSpace c = false ∧ isClosingMark c = false := by
    intro c hc
    simp only [isOpeningMark, Bool.or_eq_true, decide_eq_true_eq] at hc
    rcases hc with rfl | rfl <;> decide
  have hclosing : ∀ c, isClosingMark c = true → isSpace c = false ∧ isOpeningMark c = false := by
    intro c hc
    simp only [isClosingMark, Bool.or_eq_true, decide_eq_true_eq] at hc
    rcases hc with rfl | rfl <;> decide
  rw [undecorated_eq_self_iff (trim_undecorated word), IsRedecorated, ← trim_reverse,
    markedTwice_iff (fun c hc => (hopening c hc).1) fun c hc => (hopening c hc).2,
    markedTwice_iff (fun c hc => (hclosing c hc).1) fun c hc => (hclosing c hc).2,
    undecoratedBy_reverse, List.head?_reverse]
  simp only [not_or, not_exists, not_and, Bool.not_eq_true]
  rfl

/-! ### Lists of words -/

variable {text : List Char} {t : List Char}

theorem mem_tokens_iff :
    t ∈ tokens text ↔ t ≠ [] ∧ ∃ piece ∈ pieces isSeparator text, undecorated piece = t := by
  simp [tokens, and_comm]

theorem isSeparator_eq_false_of_mem_tokens (ht : t ∈ tokens text) :
    ∀ c ∈ t, isSeparator c = false := by
  obtain ⟨-, piece, hpiece, rfl⟩ := mem_tokens_iff.1 ht
  intro c hc
  exact eq_false_of_mem_pieces hpiece c ((undecorated_sublist piece).mem hc)

/-- Words that are joined with commas are undecorated a second time when they are parted again. -/
theorem tokens_intercalate (text : List Char) :
    tokens ([','].intercalate (tokens text)) =
      ((tokens text).map undecorated).filter fun t => !t.isEmpty := by
  by_cases hnil : tokens text = []
  · rw [hnil]
    rfl
  · rw [tokens, pieces_intercalate (by decide) hnil]
    exact fun t ht => isSeparator_eq_false_of_mem_tokens ht

theorem tokens_intercalate_eq_iff (text : List Char) :
    tokens ([','].intercalate (tokens text)) = tokens text ↔
      ∀ t ∈ tokens text, undecorated t = t := by
  rw [tokens_intercalate]
  constructor
  · intro h
    -- No word has been dropped, and so each one has become itself.
    have hlength := congrArg List.length h
    have hall := List.filter_sublist.eq_of_length (hlength.trans (List.length_map _).symm)
    rw [hall] at h
    intro t ht
    exact List.map_inj_left.1 (h.trans (List.map_id _).symm) t ht
  · intro h
    have hmap : (tokens text).map undecorated = tokens text := by
      conv_rhs => rw [← List.map_id (tokens text)]
      exact List.map_congr_left h
    rw [hmap, List.filter_eq_self]
    intro t ht
    simpa using (mem_tokens_iff.1 ht).1

theorem forall_mem_tokens_iff (text : List Char) :
    (∀ t ∈ tokens text, undecorated t = t) ↔
      ∀ piece ∈ pieces isSeparator text, ¬ IsRedecorated piece := by
  constructor
  · intro h piece hpiece
    rw [← undecorated_undecorated_eq_iff]
    by_cases hnil : undecorated piece = []
    · rw [hnil]
      rfl
    · exact h _ (mem_tokens_iff.2 ⟨hnil, piece, hpiece, rfl⟩)
  · intro h t ht
    obtain ⟨-, piece, hpiece, rfl⟩ := mem_tokens_iff.1 ht
    exact (undecorated_undecorated_eq_iff piece).2 (h piece hpiece)

/-! ### Lists of stereotypes -/

theorem stripDecoration_ofList (word : List Char) :
    stripDecoration (String.ofList word) = String.ofList (undecorated word) := by
  rw [stripDecoration, String.toList_ofList]

theorem splitTokens_intercalate (text : String) :
    splitTokens (",".intercalate (splitTokens text)) =
      (tokens ([','].intercalate (tokens text.toList))).map String.ofList := by
  have hmap : ((tokens text.toList).map String.ofList).map String.toList =
      tokens text.toList := by
    simp [Function.comp_def]
  rw [splitTokens, String.toList_intercalate, splitTokens, hmap]
  rfl

/-- The stereotype `t` is a word of the list `text`: it is not empty, it has no separator in it and
no white space at its ends, and undecorating it changes nothing unless the piece of the list from
which it comes is decorated inside its decoration. -/
structure IsTokenOf (text t : String) : Prop where
  ne_empty : t ≠ ""
  comma_not_mem : ',' ∉ t.toList
  semicolon_not_mem : ';' ∉ t.toList
  trimmed_eq : trimmed t = t
  exists_piece : ∃ piece ∈ pieces isSeparator text.toList,
    stripDecoration (String.ofList piece) = t ∧ (stripDecoration t = t ↔ ¬ IsRedecorated piece)

theorem isTokenOf_of_mem {text t : String} (ht : t ∈ splitTokens text) : IsTokenOf text t := by
  obtain ⟨word, hword, rfl⟩ := List.mem_map.1 ht
  have hseparator := isSeparator_eq_false_of_mem_tokens hword
  obtain ⟨hne, piece, hpiece, rfl⟩ := mem_tokens_iff.1 hword
  have htrimmed : trimmed (String.ofList (undecorated piece)) =
      String.ofList (undecorated piece) := by
    rw [trimmed, String.toList_ofList, trim_undecorated]
  refine ⟨by simpa using hne, ?_, ?_, htrimmed, piece, hpiece, ?_, ?_⟩
  · rw [String.toList_ofList]
    intro hmem
    exact absurd (hseparator ',' hmem) (by decide)
  · rw [String.toList_ofList]
    intro hmem
    exact absurd (hseparator ';' hmem) (by decide)
  · rw [stripDecoration_ofList]
  · rw [stripDecoration_ofList, String.ofList_inj, undecorated_undecorated_eq_iff]

/-- The words of a list of stereotypes are free of separators and of white space around them.  When
they are joined with commas, parting them again undecorates them a second time, and this gives the
same words just when no piece of the list is decorated inside its decoration. -/
theorem splitTokens_exact (text : String) :
    (∀ t ∈ splitTokens text, IsTokenOf text t) ∧
      splitTokens (",".intercalate (splitTokens text)) =
        ((splitTokens text).map stripDecoration).filter (fun t => t ≠ "") ∧
      (splitTokens (",".intercalate (splitTokens text)) = splitTokens text ↔
        ∀ piece ∈ pieces isSeparator text.toList, ¬ IsRedecorated piece) := by
  refine ⟨fun t ht => isTokenOf_of_mem ht, ?_, ?_⟩
  · have hstrip : stripDecoration ∘ String.ofList = String.ofList ∘ undecorated :=
      funext stripDecoration_ofList
    have hempty : ((fun t : String => decide (t ≠ "")) ∘ String.ofList) =
        fun t : List Char => !t.isEmpty := by
      funext t
      cases t <;> simp
    rw [splitTokens_intercalate, tokens_intercalate, splitTokens, List.map_map, hstrip,
      ← List.map_map]
    generalize (tokens text.toList).map undecorated = words
    rw [List.filter_map, hempty]
  · have hinj : Function.Injective (List.map String.ofList) :=
      List.map_injective_iff.2 fun _ _ h => String.ofList_injective h
    rw [splitTokens_intercalate, splitTokens, hinj.eq_iff, tokens_intercalate_eq_iff,
      forall_mem_tokens_iff]

/-- A decorated word among others. -/
theorem isTokenOf_of_guillemets :
    "trait" ∈ splitTokens " << trait >> ;«immutable>, , table" ∧
      IsTokenOf " << trait >> ;«immutable>, , table" "trait" := by
  have hmem : "trait" ∈ splitTokens " << trait >> ;«immutable>, , table" := by decide +kernel
  exact ⟨hmem, (splitTokens_exact _).1 _ hmem⟩

/-- A blank parts the outer guillemets from the inner ones, which are left around the word. -/
theorem stripDecoration_ne_of_innerGuillemets :
    "<<trait>>" ∈ splitTokens "<< <<trait>> >>" ∧ stripDecoration "<<trait>>" ≠ "<<trait>>" ∧
      splitTokens (",".intercalate (splitTokens "<< <<trait>> >>")) ≠
        splitTokens "<< <<trait>> >>" := by
  decide +kernel

end ClassDiagram.Stereotype
