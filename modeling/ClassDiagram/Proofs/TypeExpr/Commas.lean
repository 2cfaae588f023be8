import ClassDiagram.Proofs.TypeExpr.Cuts

/-!
# Lists separated by commas

A list is cut at those of its commas that have as many opening as closing brackets before them
(`CommaAt`), whether or not its brackets pair up.  `CutAtCommas` says what the segments of a text
are without saying how they are found: joined with commas they give the text, and the commas between
them are the ones that count.  A text has exactly one such list of segments
(`cutAtCommas_segments`, `CutAtCommas.eq_segments`); both facts follow the first segment, since a
comma that counts either ends it or counts in what stands behind it (`commaAt_append_iff`).

Texts that could be elements of a list are found again when they are joined with a comma and a blank
(`chop_intercalate`), which is how lists of types are written.
-/

namespace ClassDiagram.TypeExpr

open ClassDiagram.Text

/-! ### Commas that count -/

/-- The text is `before`, a comma and `after`, with as many opening as closing brackets before the
comma. -/
structure CommaAt (s before after : List Char) : Prop where
  eq_append : s = before ++ ',' :: after
  countP_eq : before.countP isOpening = before.countP isClosing

theorem depth_eq (s : List Char) : depth s = s.countP isOpening - s.countP isClosing := by
  induction s with
  | nil => rfl
  | cons c s ih =>
    have hcons : depth (c :: s) = depthStep c + depth s := rfl
    rw [hcons, ih, List.countP_cons, List.countP_cons, depthStep]
    by_cases hopening : isOpening c = true
    · have hclosing : isClosing c = false := isClosing_eq_false_of_isOpening hopening
      simp only [hopening, hclosing, if_true, Bool.false_eq_true, if_false]
      omega
    · simp only [hopening, Bool.false_eq_true, if_false]
      split <;> omega

theorem depth_eq_zero_iff {s : List Char} :
    depth s = 0 ↔ s.countP isOpening = s.countP isClosing := by
  rw [depth_eq]
  omega

theorem commaAt_iff_depth {s before after : List Char} :
    CommaAt s before after ↔ s = before ++ ',' :: after ∧ depth before = 0 := by
  rw [depth_eq_zero_iff]
  exact ⟨fun h => ⟨h.1, h.2⟩, fun h => ⟨h.1, h.2⟩⟩

theorem hasComma_iff {s : List Char} : HasComma s ↔ ∃ before after, CommaAt s before after := by
  simp only [commaAt_iff_depth, HasComma, Counter.Meets, zero_add, Counter.brackets_level,
    List.singleton_append]

/-- Behind a first segment, a comma that counts is the one that ends the segment, or it counts in
what follows. -/
theorem commaAt_append_iff {p s before after : List Char} (hp : ¬ HasComma p) (h0 : depth p = 0) :
    CommaAt (p ++ ',' :: s) before after ↔
      (before = p ∧ after = s) ∨ ∃ rest, before = p ++ ',' :: rest ∧ CommaAt s rest after := by
  have hdepth : ∀ rest, depth (p ++ ',' :: rest) = depth rest := by
    intro rest
    have hcomma : Counter.brackets.step ',' = 0 := Counter.step_of_isPlain _ (by decide)
    rw [← Counter.brackets_level, Counter.level_append, Counter.level_cons,
      Counter.brackets_level, h0, hcomma, zero_add, zero_add, Counter.brackets_level]
  constructor
  · intro h
    obtain ⟨heq, hbefore⟩ := commaAt_iff_depth.1 h
    rcases List.append_eq_append_iff.1 heq with ⟨x, rfl, hx⟩ | ⟨x, rfl, hx⟩
    · cases x with
      | nil => exact .inl ⟨by simp, (List.cons.inj hx).2.symm⟩
      | cons c rest =>
        obtain ⟨rfl, rfl⟩ := List.cons.inj hx
        rw [hdepth] at hbefore
        exact .inr ⟨rest, rfl, commaAt_iff_depth.2 ⟨rfl, hbefore⟩⟩
    · cases x with
      | nil => exact .inl ⟨by simp, (List.cons.inj hx).2⟩
      | cons c rest =>
        -- The comma would stand in the segment itself.
        obtain ⟨rfl, -⟩ := List.cons.inj hx
        exact absurd (hasComma_iff.2 ⟨before, rest, commaAt_iff_depth.2 ⟨rfl, hbefore⟩⟩) hp
  · rintro (⟨rfl, rfl⟩ | ⟨rest, rfl, h⟩)
    · exact commaAt_iff_depth.2 ⟨rfl, h0⟩
    · obtain ⟨rfl, hrest⟩ := commaAt_iff_depth.1 h
      exact commaAt_iff_depth.2 ⟨by simp, by rw [hdepth, hrest]⟩

/-! ### Segments -/

/-- Where the segments are joined with commas, one comma stands between `before` and `after`. -/
def JoinedAt (segs : List (List Char)) (before after : List Char) : Prop :=
  ∃ front back, front ≠ [] ∧ back ≠ [] ∧ segs = front ++ back ∧
    before = [','].intercalate front ∧ after = [','].intercalate back

/-- The text is made of the segments with commas between them, and those are all of its commas that
have as many opening as closing brackets before them. -/
structure CutAtCommas (s : List Char) (segs : List (List Char)) : Prop where
  ne_nil : segs ≠ []
  intercalate_eq : [','].intercalate segs = s
  commaAt_iff : ∀ before after, CommaAt s before after ↔ JoinedAt segs before after

variable {s p before after : List Char} {segs : List (List Char)}

theorem not_joinedAt_singleton : ¬ JoinedAt [p] before after := by
  rintro ⟨front, back, hfront, hback, hsegs, -, -⟩
  have hlength := congrArg List.length hsegs
  have hfront' := List.length_pos_of_ne_nil hfront
  have hback' := List.length_pos_of_ne_nil hback
  rw [List.length_singleton, List.length_append] at hlength
  omega

theorem joinedAt_cons_iff (hne : segs ≠ []) :
    JoinedAt (p :: segs) before after ↔
      (before = p ∧ after = [','].intercalate segs) ∨
        ∃ rest, before = p ++ ',' :: rest ∧ JoinedAt segs rest after := by
  constructor
  · rintro ⟨_ | ⟨q, front⟩, back, hfront, hback, hsegs, rfl, rfl⟩
    · exact absurd rfl hfront
    obtain ⟨rfl, rfl⟩ := List.cons.inj hsegs
    by_cases hnil : front = []
    · subst hnil
      exact .inl ⟨List.intercalate_singleton, rfl⟩
    · refine .inr ⟨[','].intercalate front, ?_, front, back, hnil, hback, rfl, rfl, rfl⟩
      rw [List.intercalate_cons_of_ne_nil hnil, List.append_assoc, List.singleton_append]
  · rintro (⟨rfl, rfl⟩ | ⟨rest, rfl, front, back, hfront, hback, rfl, rfl, rfl⟩)
    · exact ⟨[before], segs, List.cons_ne_nil _ _, hne, rfl, List.intercalate_singleton.symm, rfl⟩
    · refine ⟨p :: front, back, List.cons_ne_nil _ _, hback, rfl, ?_, rfl⟩
      rw [List.intercalate_cons_of_ne_nil hfront, List.append_assoc, List.singleton_append]

/-- A text without a comma that counts is its only segment. -/
theorem cutAtCommas_singleton (h : ¬ HasComma s) : CutAtCommas s [s] where
  ne_nil := List.cons_ne_nil _ _
  intercalate_eq := List.intercalate_singleton
  commaAt_iff before after := by
    refine ⟨fun hcomma => ?_, fun hjoined => absurd hjoined not_joinedAt_singleton⟩
    exact absurd (hasComma_iff.2 ⟨before, after, hcomma⟩) h

theorem CutAtCommas.cons (hp : ¬ HasComma p) (h0 : depth p = 0) (h : CutAtCommas s segs) :
    CutAtCommas (p ++ ',' :: s) (p :: segs) where
  ne_nil := List.cons_ne_nil _ _
  intercalate_eq := by
    rw [List.intercalate_cons_of_ne_nil h.ne_nil, h.intercalate_eq, List.append_assoc,
      List.singleton_append]
  commaAt_iff before after := by
    rw [commaAt_append_iff hp h0, joinedAt_cons_iff h.ne_nil, h.intercalate_eq]
    simp only [h.commaAt_iff]

/-- The scan finds the segments of a text. -/
theorem cutAtCommas_segments (s : List Char) : CutAtCommas s (segments 0 s) := by
  -- By induction on the length: a text with a comma that counts is cut at the first one.
  induction hn : s.length using Nat.strong_induction_on generalizing s with
  | _ n ih =>
    by_cases hcomma : HasComma s
    · obtain ⟨p, r, hcut⟩ := (Counter.exists_cutsAt_iff (List.cons_ne_nil _ _)).2 hcomma
      obtain ⟨rfl, hlevel, hp⟩ := (Counter.cutsAt_iff (unbordered_singleton ',')).1 hcut
      rw [zero_add, Counter.brackets_level] at hlevel
      have hlength : r.length < n := by
        rw [← hn, List.length_append, List.length_append, List.length_singleton]
        omega
      rw [List.singleton_append, segments_append_comma hp (by rw [zero_add, hlevel])]
      exact (ih r.length hlength r rfl).cons hp hlevel
    · rw [segments_of_not_meets hcomma]
      exact cutAtCommas_singleton hcomma

/-- The first segment ends at the first comma that counts, and the others are those of what stands
behind it. -/
theorem CutAtCommas.tail (h : CutAtCommas s (p :: segs)) (hne : segs ≠ []) :
    depth p = 0 ∧ ¬ HasComma p ∧ CutAtCommas ([','].intercalate segs) segs := by
  have hs : s = p ++ ',' :: [','].intercalate segs := by
    rw [← h.intercalate_eq, List.intercalate_cons_of_ne_nil hne, List.append_assoc,
      List.singleton_append]
  have h0 : depth p = 0 := by
    have hcomma := (h.commaAt_iff p _).2 ((joinedAt_cons_iff hne).2 (.inl ⟨rfl, rfl⟩))
    exact (commaAt_iff_depth.1 hcomma).2
  have hp : ¬ HasComma p := by
    rw [hasComma_iff]
    rintro ⟨before, after, hcomma⟩
    obtain ⟨hp, hbefore⟩ := commaAt_iff_depth.1 hcomma
    -- The comma would end a segment that is shorter than the first one.
    have hlength := congrArg List.length hp
    rw [List.length_append, List.length_cons] at hlength
    have hcomma' : CommaAt s before (after ++ ',' :: [','].intercalate segs) :=
      commaAt_iff_depth.2 ⟨by rw [hs, hp]; simp, hbefore⟩
    obtain ⟨rfl, -⟩ | ⟨rest, rfl, -⟩ :=
      (joinedAt_cons_iff hne).1 ((h.commaAt_iff _ _).1 hcomma')
    · omega
    · rw [List.length_append, List.length_cons] at hlength
      omega
  refine ⟨h0, hp, hne, rfl, fun before after => ?_⟩
  have hiff := h.commaAt_iff (p ++ ',' :: before) after
  rw [hs, commaAt_append_iff hp h0, joinedAt_cons_iff hne] at hiff
  simpa using hiff

theorem CutAtCommas.of_singleton (h : CutAtCommas s [p]) : p = s ∧ ¬ HasComma p := by
  have hp : p = s := by rw [← h.intercalate_eq, List.intercalate_singleton]
  refine ⟨hp, ?_⟩
  rw [hasComma_iff]
  rintro ⟨before, after, hcomma⟩
  exact not_joinedAt_singleton ((h.commaAt_iff before after).1 (hp ▸ hcomma))

/-- A text has no other segments than those that the scan finds. -/
theorem CutAtCommas.eq_segments (h : CutAtCommas s segs) : segs = segments 0 s := by
  induction segs generalizing s with
  | nil => exact absurd rfl h.ne_nil
  | cons p segs ih =>
    by_cases hnil : segs = []
    · subst hnil
      obtain ⟨rfl, hp⟩ := h.of_singleton
      rw [segments_of_not_meets hp]
    · obtain ⟨h0, hp, htail⟩ := h.tail hnil
      rw [← h.intercalate_eq, List.intercalate_cons_of_ne_nil hnil, List.append_assoc,
        List.singleton_append, segments_append_comma hp (by rw [zero_add, h0]), ← ih htail]

theorem cutAtCommas_iff : CutAtCommas s segs ↔ segs = segments 0 s :=
  ⟨CutAtCommas.eq_segments, fun h => h ▸ cutAtCommas_segments s⟩

theorem CutAtCommas.not_hasComma (h : CutAtCommas s segs) (hp : p ∈ segs) : ¬ HasComma p := by
  induction segs generalizing s with
  | nil => exact absurd hp List.not_mem_nil
  | cons q segs ih =>
    by_cases hnil : segs = []
    · subst hnil
      obtain rfl := List.mem_singleton.1 hp
      exact h.of_singleton.2
    · obtain ⟨-, hq, htail⟩ := h.tail hnil
      rcases List.mem_cons.1 hp with rfl | hp
      · exact hq
      · exact ih htail hp

/-! ### Pieces -/

theorem chop_eq_nil_iff : chop s = [] ↔ isBlank s = true := by
  rw [chop]
  split
  · next h => simp [h]
  · next h => simp [h, segments_ne_nil]

theorem CutAtCommas.chop_eq (h : CutAtCommas s segs) (hblank : isBlank s = false) :
    chop s = segs.map trim := by
  rw [chop, hblank, if_neg Bool.false_ne_true, h.eq_segments]

theorem not_commaAt_of_mem_chop (hp : p ∈ chop s) : ¬ CommaAt p before after := by
  rw [chop] at hp
  split at hp
  · cases hp
  · obtain ⟨q, hq, rfl⟩ := List.mem_map.1 hp
    intro hcomma
    exact (cutAtCommas_segments s).not_hasComma hq (hasComma_iff.2 ⟨_, _, hcomma⟩).of_trim

/-! ### Joined lists -/

/-- A text that can be an element of a list: it has no white space at its ends, its brackets pair
up, and it has no comma outside of them. -/
structure IsElement (p : List Char) : Prop where
  trim_eq : trim p = p
  wellNested : WellNested p
  not_commaAt : ∀ before after, ¬ CommaAt p before after

theorem IsElement.not_hasComma (h : IsElement p) : ¬ HasComma p := by
  rw [hasComma_iff]
  rintro ⟨before, after, hcomma⟩
  exact h.not_commaAt before after hcomma

theorem isElement_iff : IsElement p ↔ trim p = p ∧ isNested p = true ∧ segments 0 p = [p] := by
  rw [isNested_iff]
  constructor
  · intro h
    exact ⟨h.trim_eq, h.wellNested, segments_of_not_meets h.not_hasComma⟩
  · rintro ⟨htrim, hnested, hsegments⟩
    refine ⟨htrim, hnested, fun before after hcomma => ?_⟩
    exact (cutAtCommas_iff.2 hsegments.symm).of_singleton.2 (hasComma_iff.2 ⟨_, _, hcomma⟩)

instance (p : List Char) : Decidable (IsElement p) := decidable_of_iff _ isElement_iff.symm

/-- Elements that are joined with a comma and a blank are the segments of the join, the blank being
the first character of all segments but the first one. -/
theorem cutAtCommas_intercalate (h : ∀ q ∈ p :: segs, WellNested q ∧ ¬ HasComma q) :
    CutAtCommas (", ".toList.intercalate (p :: segs)) (p :: segs.map (' ' :: ·)) := by
  have hdepth : ∀ q, depth (' ' :: q) = depth q := fun q => by
    rw [← Counter.brackets_level, Counter.level_cons,
      Counter.step_of_isPlain _ (by decide : IsPlain ' '), zero_add, Counter.brackets_level]
  rw [intercalate_comma_blank, cutAtCommas_iff, segments_intercalate (List.cons_ne_nil _ _)]
  intro q hq
  rcases List.mem_cons.1 hq with rfl | hq
  · obtain ⟨hnested, hcomma⟩ := h q List.mem_cons_self
    exact ⟨depth_of_wellNested hnested, hcomma⟩
  · obtain ⟨r, hr, rfl⟩ := List.mem_map.1 hq
    obtain ⟨hnested, hcomma⟩ := h r (List.mem_cons_of_mem _ hr)
    rw [hdepth, hasComma_blank_cons_iff]
    exact ⟨depth_of_wellNested hnested, hcomma⟩

/-- A list of elements is found again when it has been joined with a comma and a blank. -/
theorem chop_intercalate {ps : List (List Char)} (hne : ps ≠ []) (hnil : ps ≠ [[]])
    (h : ∀ p ∈ ps, IsElement p) : chop (", ".toList.intercalate ps) = ps := by
  have hblank : isBlank (", ".toList.intercalate ps) = false := by
    refine isBlank_intercalate_eq_false hne fun p hp => ?_
    rw [isBlank_eq_false_iff, (h p (by rw [hp]; exact List.mem_cons_self)).trim_eq]
    rintro rfl
    exact hnil hp
  obtain ⟨p, ps, rfl⟩ := List.exists_cons_of_ne_nil hne
  have hcut := cutAtCommas_intercalate fun q hq => ⟨(h q hq).wellNested, (h q hq).not_hasComma⟩
  rw [hcut.chop_eq hblank, List.map_cons, List.map_map, (h p List.mem_cons_self).trim_eq]
  congr 1
  conv_rhs => rw [← List.map_id ps]
  refine List.map_congr_left fun q hq => ?_
  have hspace : trim (' ' :: q) = trim q := trim_append_of_isBlank (a := [' ']) (by decide) q
  rw [Function.comp_apply, hspace, (h q (List.mem_cons_of_mem _ hq)).trim_eq, id]

/-- A blank text has no pieces.  The pieces of any other text are the trims of its segments, and so
none of them has a comma that counts.  Elements that have been joined are the pieces of the join. -/
theorem chop_exact (s : List Char) :
    (chop s = [] ↔ isBlank s = true) ∧
      (isBlank s = false → (∃ segs, CutAtCommas s segs) ∧
        ∀ segs, CutAtCommas s segs → chop s = segs.map trim) ∧
      (∀ p ∈ chop s, ∀ before after, ¬ CommaAt p before after) ∧
      ∀ ps, ps ≠ [] → ps ≠ [[]] → (∀ p ∈ ps, IsElement p) →
        chop (", ".toList.intercalate ps) = ps := by
  refine ⟨chop_eq_nil_iff, fun hblank => ?_, ?_, ?_⟩
  · exact ⟨⟨_, cutAtCommas_segments s⟩, fun segs h => h.chop_eq hblank⟩
  · intro p hp before after
    exact not_commaAt_of_mem_chop hp
  · intro ps hne hnil h
    exact chop_intercalate hne hnil h

/-- The brackets of the first text do not pair up: its first and last comma count, and the one in
between does not, where one bracket more has been closed than opened.  The second list has an empty
element. -/
theorem chop_of_looseBrackets :
    (isBlank "a, b], [c, d".toList = false ∧
        CutAtCommas "a, b], [c, d".toList ["a".toList, " b], [c".toList, " d".toList] ∧
        chop "a, b], [c, d".toList = ["a".toList, "b], [c".toList, "d".toList]) ∧
      (∀ p ∈ ["Map[A, B]".toList, [], "(C, D) => E".toList], IsElement p) ∧
        chop (", ".toList.intercalate ["Map[A, B]".toList, [], "(C, D) => E".toList]) =
          ["Map[A, B]".toList, [], "(C, D) => E".toList] := by
  have hblank : isBlank "a, b], [c, d".toList = false := by decide
  have hcut : CutAtCommas "a, b], [c, d".toList ["a".toList, " b], [c".toList, " d".toList] :=
    cutAtCommas_iff.2 (by decide)
  have helements : ∀ p ∈ ["Map[A, B]".toList, [], "(C, D) => E".toList], IsElement p := by decide
  refine ⟨⟨hblank, hcut, ?_⟩, helements, ?_⟩
  · exact ((chop_exact _).2.1 hblank).2 _ hcut
  · exact (chop_exact []).2.2.2 _ (by decide) (by decide) helements

end ClassDiagram.TypeExpr
