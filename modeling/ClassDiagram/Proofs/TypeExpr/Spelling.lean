import ClassDiagram.Proofs.TypeExpr.Grammar
import ClassDiagram.Proofs.TypeExpr.Leaves
import ClassDiagram.TypeExpr.Printer

/-!
# Types that can be read back

A printed type can be read back if its names are read as names, its generic types have a builtin
type or a name for their base, and what is listed between commas has no comma of its own outside
brackets (`Readable`).  The grammar derives such a type from what is printed for it, but for the
packages: a name that was printed with its package is read as one long name (`derives_print`).
-/

namespace ClassDiagram

/-- The reference that a printed reference is read as. -/
def EntityRef.asRead (r : EntityRef) : EntityRef := unqualified r.qualifiedName

namespace TypeExpr

open ClassDiagram.Text

/-! ### Words and names -/

/-- A trimmed text without structure of its own: nothing in it is read as an arrow, as parameters
or as parentheses around the whole text. -/
structure IsWord (u : List Char) : Prop where
  ne_nil : u ≠ []
  trim_eq : trim u = u
  wellNested : WellNested u
  not_hasArrow : ¬ HasArrow u
  not_hasOpening : ¬ HasOpening u
  not_inParens : ∀ m, ¬ InParens u m

/-- A word that is not the name of a builtin type. -/
structure IsName (u : List Char) : Prop extends IsWord u where
  not_builtin : ∀ b : Builtin, b.name.toList ≠ u

theorem forall_isAlpha_name (b : Builtin) : ∀ c ∈ b.name.toList, c.isAlpha = true := by
  rw [← List.all_eq_true]
  cases b <;> decide

theorem not_mem_name (b : Builtin) {c : Char} (hc : c.isAlpha = false) : c ∉ b.name.toList := by
  intro h
  rw [forall_isAlpha_name b c h] at hc
  exact Bool.noConfusion hc

theorem isWord_name (b : Builtin) : IsWord b.name.toList where
  ne_nil := by cases b <;> decide
  trim_eq := by cases b <;> decide
  wellNested := by
    apply wellNested_of_forall_plain
    intro c hc
    exact isPlain_of_isAlpha (forall_isAlpha_name b c hc)
  not_hasArrow := Counter.not_meets_of_not_mem (not_mem_name b (by decide))
  not_hasOpening := Counter.not_meets_of_not_mem (not_mem_name b (by decide))
  not_inParens := by
    intro m h
    have hparen : '(' ∉ b.name.toList := not_mem_name b (by decide)
    rw [h.eq_append] at hparen
    exact hparen List.mem_cons_self

/-- A properly nested text with a character that is no letter is compound. -/
theorem isCompound_of_mem {u : List Char} (hw : WellNested u) {c : Char} (hc : c ∈ u)
    (ha : c.isAlpha = false) : IsCompound u where
  ne_nil := List.ne_nil_of_mem hc
  not_builtin := by
    rintro b rfl
    exact not_mem_name b ha hc
  wellNested := hw

/-! ### Parts of what is printed -/

theorem IsWord.not_isBlank {u : List Char} (h : IsWord u) : isBlank u = false := by
  rw [isBlank_eq_false_iff, h.trim_eq]
  exact h.ne_nil

theorem IsWord.dropWhile_eq {u : List Char} (h : IsWord u) : u.dropWhile isSpace = u := by
  refine (List.dropWhile_suffix _).eq_of_length (Nat.le_antisymm ?_ ?_)
  · exact (List.dropWhile_suffix _).length_le
  · conv_lhs => rw [← h.trim_eq, trim_eq_rdropWhile]
    exact (List.rdropWhile_prefix _ _).length_le

/-- What is printed for a list, between the commas. -/
def listPieces : List TypeExpr → List (List Char)
  | [] => []
  | t :: ts => print t :: ts.map fun t => ' ' :: print t

theorem printList_eq_intercalate (ts : List TypeExpr) :
    printList ts = ", ".toList.intercalate (ts.map print) := by
  have hrest : ∀ (p : List Char) (ts : List TypeExpr),
      p ++ printRest ts = ", ".toList.intercalate (p :: ts.map print) := by
    intro p ts
    induction ts generalizing p with
    | nil => rw [printRest, List.append_nil, List.map_nil, List.intercalate_singleton]
    | cons t ts ih =>
      rw [List.map_cons, List.intercalate_cons_cons, ← ih, printRest]
      simp
  cases ts with
  | nil => rfl
  | cons t ts => exact hrest _ ts

theorem printList_eq_intercalate_listPieces (ts : List TypeExpr) :
    printList ts = [','].intercalate (listPieces ts) := by
  rw [printList_eq_intercalate]
  cases ts with
  | nil => rfl
  | cons t ts => rw [List.map_cons, intercalate_comma_blank, List.map_map]; rfl

theorem map_trim_listPieces (ts : List TypeExpr) :
    (listPieces ts).map trim = ts.map fun t => trim (print t) := by
  have hspace : ∀ t, trim (' ' :: print t) = trim (print t) := fun t =>
    trim_append_of_isBlank (a := [' ']) (by decide) (print t)
  cases ts with
  | nil => rfl
  | cons t ts => simp [listPieces, hspace]

theorem forall_mem_listPieces {P : List Char → Prop} {ts : List TypeExpr}
    (h : ∀ t ∈ ts, P (print t)) (hspace : ∀ s, P s → P (' ' :: s)) :
    ∀ p ∈ listPieces ts, P p := by
  cases ts with
  | nil => simp [listPieces]
  | cons t ts =>
    intro p hp
    rcases List.mem_cons.1 hp with rfl | hp
    · exact h t List.mem_cons_self
    · obtain ⟨t', ht', rfl⟩ := List.mem_map.1 hp
      exact hspace _ (h t' (List.mem_cons_of_mem _ ht'))

theorem wellNested_printList {ts : List TypeExpr} (h : ∀ t ∈ ts, WellNested (print t)) :
    WellNested (printList ts) := by
  have hrest : ∀ ts : List TypeExpr, (∀ t ∈ ts, WellNested (print t)) →
      WellNested (printRest ts) := by
    intro ts h
    induction ts with
    | nil => exact .nil
    | cons t ts ih =>
      have hsep : WellNested [',', ' '] := wellNested_of_all_plain (by decide)
      rw [printRest]
      refine (hsep.append (h t List.mem_cons_self)).append (ih ?_)
      exact fun t' ht' => h t' (List.mem_cons_of_mem _ ht')
  cases ts with
  | nil => exact .nil
  | cons t ts =>
    rw [printList]
    refine (h t List.mem_cons_self).append (hrest ts ?_)
    exact fun t' ht' => h t' (List.mem_cons_of_mem _ ht')

theorem print_generic (base : TypeExpr) (params : List TypeExpr) :
    print (.generic base params) = print base ++ '[' :: (printList params ++ [']']) := by
  rw [print, List.append_assoc, List.cons_append]

/-- A single input that is printed without parentheses around it. -/
def IsBare (inputs : List TypeExpr) : Prop := ∃ i, inputs = [i] ∧ i.isContainer = false

theorem printInputs_of_not_isBare {inputs : List TypeExpr} (h : ¬ IsBare inputs) :
    printInputs inputs = '(' :: (printList inputs ++ [')']) := by
  rw [printInputs_eq]
  split
  · next i =>
    have hi : i.isContainer = true := by
      by_contra hi
      exact h ⟨i, rfl, by simpa using hi⟩
    rw [if_pos hi, printList, printRest, List.append_nil, List.cons_append]
  · rw [List.cons_append]

theorem printInputs_singleton {i : TypeExpr} (h : i.isContainer = false) :
    printInputs [i] = print i := by
  rw [printInputs_eq]
  simp [h]

theorem wellNested_printInputs {inputs : List TypeExpr} (h : ∀ i ∈ inputs, WellNested (print i)) :
    WellNested (printInputs inputs) := by
  by_cases hb : IsBare inputs
  · obtain ⟨i, rfl, hi⟩ := hb
    rw [printInputs_singleton hi]
    exact h i List.mem_cons_self
  · rw [printInputs_of_not_isBare hb]
    exact (wellNested_printList h).bracketed rfl

theorem wellNested_arrow : WellNested " => ".toList := wellNested_of_all_plain (by decide)

/-! ### Types that can be read back -/

/-- A type that can be read back from what is printed for it. -/
inductive Readable : TypeExpr → Prop where
  | empty : Readable .empty
  | builtin (b : Builtin) : Readable (.builtin b)
  | user {r : EntityRef} : IsName r.qualifiedName.toList → Readable (.user r)
  | generic {base : TypeExpr} {params : List TypeExpr} : base.isAtom = true → Readable base →
      params ≠ [.empty] → (∀ p ∈ params, Readable p) → (∀ p ∈ params, ¬ HasComma (print p)) →
      Readable (.generic base params)
  | function {inputs : List TypeExpr} {output : TypeExpr} : (∀ i ∈ inputs, Readable i) →
      (IsBare inputs ∨ ∀ i ∈ inputs, ¬ HasComma (print i)) → Readable output →
      Readable (.function inputs output)
  | tuple {items : List TypeExpr} : items ≠ [.empty] → (∀ i ∈ items, Readable i) →
      (∀ i ∈ items, ¬ HasComma (print i)) → Readable (.tuple items)

theorem wellNested_print {t : TypeExpr} (ht : Readable t) : WellNested (print t) := by
  induction ht with
  | empty => exact .nil
  | builtin b => exact (isWord_name b).wellNested
  | user hr => exact hr.wellNested
  | generic _ _ _ _ _ ihbase ihparams =>
    rw [print_generic]
    exact ihbase.append ((wellNested_printList ihparams).bracketed rfl)
  | function _ _ _ ihinputs ihoutput =>
    exact ((wellNested_printInputs ihinputs).append wellNested_arrow).append ihoutput
  | tuple _ _ _ ih => exact (wellNested_printList ih).bracketed rfl

/-- Only for the empty type nothing is printed. -/
theorem not_isBlank_print {t : TypeExpr} (ht : Readable t) (hne : t ≠ .empty) :
    isBlank (print t) = false := by
  cases ht with
  | empty => exact absurd rfl hne
  | builtin b => exact (isWord_name b).not_isBlank
  | user hr => exact hr.not_isBlank
  | generic =>
    refine isBlank_eq_false_of_mem (c := '[') ?_ (by decide)
    simp [print]
  | function =>
    refine isBlank_eq_false_of_mem (c := '=') ?_ (by decide)
    simp [print]
  | tuple =>
    refine isBlank_eq_false_of_mem (c := '(') ?_ (by decide)
    simp [print]

theorem isWord_print {t : TypeExpr} (ht : Readable t) (ha : t.isAtom = true) :
    IsWord (print t) := by
  cases ht with
  | builtin b => exact isWord_name b
  | user hr => exact hr.toIsWord
  | empty | generic | function | tuple => simp [isAtom] at ha

/-- A list that can be read back is printed in pieces that are trimmed to what is printed for its
elements. -/
theorem exists_pieces_printList {ts : List TypeExpr} (hne : ts ≠ [.empty])
    (ht : ∀ t ∈ ts, Readable t) (hcomma : ∀ t ∈ ts, ¬ HasComma (print t)) :
    ∃ ps, Pieces (printList ts) ps ∧ ps.map trim = ts.map fun t => trim (print t) := by
  by_cases hnil : ts = []
  · subst hnil
    exact ⟨[], .blank rfl, rfl⟩
  refine ⟨listPieces ts, ?_, map_trim_listPieces ts⟩
  have hblank : isBlank (printList ts) = false := by
    rw [printList_eq_intercalate]
    refine isBlank_intercalate_eq_false (by simpa using hnil) fun p hp => ?_
    obtain ⟨t, rfl, rfl⟩ := List.map_eq_singleton_iff.1 hp
    exact not_isBlank_print (ht t List.mem_cons_self) fun h => hne (by rw [h])
  rw [printList_eq_intercalate_listPieces] at hblank ⊢
  refine .join hblank ?_ ?_
  · cases ts with
    | nil => exact absurd rfl hnil
    | cons t ts => exact List.cons_ne_nil _ _
  · refine forall_mem_listPieces (fun t h => ⟨wellNested_print (ht t h), hcomma t h⟩) ?_
    -- The space behind a comma changes nothing.
    rintro s ⟨hs, hc⟩
    have hspace : IsPlain ' ' := by decide
    exact ⟨(wellNested_cons_iff hspace).2 hs, by rwa [hasComma_blank_cons_iff]⟩

/-! ### The arrow of a printed function -/

theorem ArrowAt.isCompound {u l r : List Char} (h : ArrowAt u l r) (hu : WellNested u) :
    IsCompound u :=
  isCompound_of_mem hu (c := '=') (by simp [h.eq_append]) (by decide)

/-- An input that is printed without parentheses does not stand in parentheses of its own. -/
theorem not_inParens_print {i : TypeExpr} (ht : Readable i) (hi : i.isContainer = false) :
    ∀ m, ¬ InParens (trim (print i)) m := by
  cases ht with
  | empty => intro m h; simpa [print] using h.eq_append
  | builtin b => rw [print, (isWord_name b).trim_eq]; exact (isWord_name b).not_inParens
  | user hr => rw [print, hr.trim_eq]; exact hr.not_inParens
  | generic | function | tuple => simp [isContainer] at hi

/-- In front of its first arrow, a function that can be read back has its inputs. -/
theorem not_hasArrow_printInputs {inputs : List TypeExpr} (h : ∀ i ∈ inputs, Readable i) :
    ¬ HasArrow (printInputs inputs) := by
  by_cases hb : IsBare inputs
  · obtain ⟨i, rfl, hi⟩ := hb
    rw [printInputs_singleton hi]
    cases h i List.mem_cons_self with
    | empty => exact Counter.not_meets_nil (List.cons_ne_nil _ _)
    | builtin b => exact (isWord_name b).not_hasArrow
    | user hr => exact hr.not_hasArrow
    | generic | function | tuple => simp [isContainer] at hi
  · rw [printInputs_of_not_isBare hb]
    have hlist := wellNested_printList fun i hi => wellNested_print (h i hi)
    exact Counter.not_meets_pair hlist (by decide) (by decide)

/-- Where a text without an arrow stands in front of an arrow, that is the arrow found. -/
theorem exists_arrowAt {l r : List Char} (hl : WellNested l) (ha : ¬ HasArrow l)
    (hr : WellNested r) :
    ∃ l' r', ArrowAt (trim (l ++ " => ".toList ++ r)) l' r' ∧ trim l' = trim l ∧
      trim r' = trim r := by
  have hspace : isBlank [' '] = true := by decide
  have hplain : WellNested [' '] := wellNested_of_isBlank hspace
  -- The white space around the arrow goes to the sides.
  have htrim : trim (l ++ " => ".toList ++ r) =
      (l ++ [' ']).dropWhile isSpace ++ '=' :: '>' :: (' ' :: r).rdropWhile isSpace := by
    have h := trim_append_word (l := l ++ [' ']) (r := ' ' :: r) (x := '=') (y := '>') (w := [])
      (by decide) (by decide)
    rw [List.nil_append, List.nil_append] at h
    rw [← h]
    simp
  have hwell : WellNested (trim (l ++ " => ".toList ++ r)) :=
    wellNested_trim_iff.2 ((hl.append wellNested_arrow).append hr)
  have hleft : WellNested ((l ++ [' ']).dropWhile isSpace) := by
    rw [← wellNested_trim_iff, trim_dropWhile, wellNested_trim_iff]
    exact hl.append hplain
  -- The space between the left side and the arrow makes no arrow of its own.
  have hmeet : ¬ HasArrow ((l ++ [' ']).dropWhile isSpace) := by
    intro h
    obtain ⟨a, hsplit, hblank⟩ := exists_eq_append_dropWhile (l ++ [' '])
    have h' : HasArrow (l ++ [' ']) := by
      rw [hsplit]
      exact h.append_left (wellNested_of_isBlank hblank)
    refine Counter.not_meets_arrow_append hl ha ?_ (by decide) h'
    rintro ⟨a, b, hab, -⟩
    have hlen := congrArg List.length hab
    simp only [List.length_append, List.length_cons, List.length_nil] at hlen
    omega
  refine ⟨(l ++ [' ']).dropWhile isSpace, (' ' :: r).rdropWhile isSpace, ?_, ?_, ?_⟩
  · rw [arrowAt_iff_cutsAt hwell, Counter.cutsAt_iff unbordered_arrow]
    exact ⟨htrim, by rw [Counter.level_of_wellNested _ hleft]; rfl, hmeet⟩
  · rw [trim_dropWhile, trim_append_isBlank hspace]
  · rw [trim_rdropWhile]
    exact trim_append_of_isBlank hspace r

theorem HasForm.user_of_isName {u : List Char} (h : IsName u) : HasForm u (.user u) :=
  .user ⟨h.ne_nil, h.not_builtin, h.wellNested⟩
    ((forall_not_arrowAt_iff h.wellNested).2 h.not_hasArrow)
    ((forall_not_bracketAt_iff h.wellNested).2 h.not_hasOpening) h.not_inParens

/-! ### The form of what is printed -/

section Printed

variable {t : TypeExpr} {ts : List TypeExpr}

/-- A generic type that is printed has the form that it was printed from. -/
theorem hasForm_print_generic (ht : Readable t) (ha : t.isAtom = true) (hne : ts ≠ [.empty])
    (hts : ∀ t ∈ ts, Readable t) (hcomma : ∀ t ∈ ts, ¬ HasComma (print t)) :
    HasForm (trim (print (.generic t ts)))
      (.generic (trim (print t)) (ts.map fun t => trim (print t))) := by
  have hword := isWord_print ht ha
  have hlist : WellNested (printList ts) :=
    wellNested_printList fun t h => wellNested_print (hts t h)
  obtain ⟨ps, hps, hmap⟩ := exists_pieces_printList hne hts hcomma
  -- Behind the word for the base, the parameters stand in brackets up to the end of the text.
  have htrim : trim (print (.generic t ts)) = print t ++ '[' :: (printList ts ++ [']']) := by
    rw [print_generic, trim_append_word (by decide) (by decide), hword.dropWhile_eq]
    rfl
  have hpair : WellNested ('[' :: (printList ts ++ [']'])) := hlist.bracketed rfl
  have hwell : WellNested (print t ++ '[' :: (printList ts ++ [']'])) :=
    hword.wellNested.append hpair
  have hbracket :
      BracketAt (print t ++ '[' :: (printList ts ++ [']'])) (print t) (printList ts) [] :=
    ⟨rfl, hword.wellNested, hword.not_hasOpening, hlist⟩
  have harrow : ¬ HasArrow (print t ++ '[' :: (printList ts ++ [']'])) := by
    apply Counter.not_meets_arrow_append hword.wellNested hword.not_hasArrow
    · exact Counter.not_meets_pair hlist (by decide) (by decide)
    · simp
  have hcompound : IsCompound (print t ++ '[' :: (printList ts ++ [']'])) :=
    isCompound_of_mem hwell (c := '[') (by simp) (by decide)
  rw [htrim, ← hmap]
  exact .generic hcompound ((forall_not_arrowAt_iff hwell).2 harrow) hbracket rfl hps

/-- Between the inputs and the output of a printed function stands the arrow that is found first,
and the inputs in front of it are taken apart as they have been put together. -/
theorem exists_hasForm_print_function {output : TypeExpr} (hts : ∀ t ∈ ts, Readable t)
    (hsplit : IsBare ts ∨ ∀ t ∈ ts, ¬ HasComma (print t)) (houtput : Readable output) :
    ∃ r, HasForm (trim (print (.function ts output)))
      (.function (ts.map fun t => trim (print t)) r) ∧ trim r = trim (print output) := by
  have hnested : ∀ t ∈ ts, WellNested (print t) := fun t h => wellNested_print (hts t h)
  obtain ⟨l, r, harrow, hl, hr⟩ := exists_arrowAt (wellNested_printInputs hnested)
    (not_hasArrow_printInputs hts) (wellNested_print houtput)
  have hcompound : IsCompound (trim (print (.function ts output))) :=
    harrow.isCompound (wellNested_trim_iff.2 (wellNested_print (.function hts hsplit houtput)))
  refine ⟨r, ?_, hr⟩
  by_cases hb : IsBare ts
  · -- The input stands in front of the arrow as it is.
    obtain ⟨i, rfl, hi⟩ := hb
    rw [printInputs_singleton hi] at hl
    have hparens : ∀ m, ¬ InParens (trim l) m := by
      rw [hl]
      exact not_inParens_print (hts i List.mem_cons_self) hi
    rw [List.map_singleton, ← hl]
    exact .input hcompound harrow hparens
  · -- The inputs stand in parentheses, between commas.
    rw [printInputs_of_not_isBare hb, trim_cons_append_singleton _ (by decide) (by decide)] at hl
    have hne : ts ≠ [.empty] := by
      rintro rfl
      exact hb ⟨.empty, rfl, rfl⟩
    obtain ⟨ps, hps, hmap⟩ := exists_pieces_printList hne hts (hsplit.resolve_left hb)
    rw [← hmap]
    exact .inputs hcompound harrow ⟨hl, wellNested_printList hnested⟩ hps

theorem hasForm_print_tuple (hne : ts ≠ [.empty]) (hts : ∀ t ∈ ts, Readable t)
    (hcomma : ∀ t ∈ ts, ¬ HasComma (print t)) :
    HasForm (trim (print (.tuple ts))) (.tuple (ts.map fun t => trim (print t))) := by
  have hlist : WellNested (printList ts) :=
    wellNested_printList fun t h => wellNested_print (hts t h)
  obtain ⟨ps, hps, hmap⟩ := exists_pieces_printList hne hts hcomma
  have htrim : trim (print (.tuple ts)) = '(' :: (printList ts ++ [')']) :=
    trim_cons_append_singleton _ (by decide) (by decide)
  have hwell : WellNested ('(' :: (printList ts ++ [')'])) := hlist.bracketed rfl
  have harrow : ¬ HasArrow ('(' :: (printList ts ++ [')'])) :=
    Counter.not_meets_pair hlist (by decide) (by decide)
  have hopen : ¬ HasOpening ('(' :: (printList ts ++ [')'])) :=
    Counter.not_meets_pair hlist (by decide) (by decide)
  have hcompound : IsCompound ('(' :: (printList ts ++ [')'])) :=
    isCompound_of_mem hwell (c := '(') (by simp) (by decide)
  rw [htrim, ← hmap]
  exact .tuple hcompound ((forall_not_arrowAt_iff hwell).2 harrow)
    ((forall_not_bracketAt_iff hwell).2 hopen) ⟨rfl, hlist⟩ hps

end Printed

/-! ### Reading what is printed -/

theorem derives_of_mem_zip_map {ts : List TypeExpr} {f : TypeExpr → TypeExpr}
    (h : ∀ t ∈ ts, Derives (trim (print t)) (f t)) :
    (ts.map fun t => trim (print t)).length = (ts.map f).length ∧
      ∀ p t, (p, t) ∈ (ts.map fun t => trim (print t)).zip (ts.map f) → Derives p t := by
  rw [List.length_map, List.length_map, List.zip_map']
  refine ⟨rfl, ?_⟩
  intro p t hpt
  obtain ⟨t', ht', heq⟩ := List.mem_map.1 hpt
  obtain ⟨rfl, rfl⟩ := Prod.mk.inj heq
  exact h t' ht'

/-- From what is printed for a type that can be read back, the grammar derives the type again, each
name with its package read as one name. -/
theorem derives_print {t : TypeExpr} (ht : Readable t) :
    Derives (trim (print t)) (t.mapLeaves EntityRef.asRead) := by
  induction ht with
  | empty => exact .empty .empty
  | builtin b =>
    rw [print, (isWord_name b).trim_eq]
    exact .builtin (.builtin b)
  | @user r hr =>
    rw [print, hr.trim_eq]
    have h := Derives.user (HasForm.user_of_isName hr)
    rwa [String.ofList_toList] at h
  | @generic base params hatom hbase hne hparams hcomma ihbase ihparams =>
    obtain ⟨hlen, hzip⟩ := derives_of_mem_zip_map ihparams
    have hatom' : (base.mapLeaves EntityRef.asRead).isAtom = true := by
      cases base with
      | builtin | user => rfl
      | empty | generic | function | tuple => exact Bool.noConfusion hatom
    rw [mapLeaves_generic, mapLeavesList_eq_map]
    exact .generic (hasForm_print_generic hbase hatom hne hparams hcomma) ihbase hatom' hlen hzip
  | function hinputs hsplit houtput ihinputs ihoutput =>
    obtain ⟨hlen, hzip⟩ := derives_of_mem_zip_map ihinputs
    obtain ⟨r, hform, hr⟩ := exists_hasForm_print_function hinputs hsplit houtput
    rw [mapLeaves_function, mapLeavesList_eq_map]
    exact .function hform hlen hzip (hr ▸ ihoutput)
  | tuple hne hitems hcomma ih =>
    obtain ⟨hlen, hzip⟩ := derives_of_mem_zip_map ih
    rw [mapLeaves_tuple, mapLeavesList_eq_map]
    exact .tuple (hasForm_print_tuple hne hitems hcomma) hlen hzip

end TypeExpr

end ClassDiagram
