import ClassDiagram.Proofs.TypeExpr.Spelling
import Mathlib.Logic.Relation

/-!
# Texts that are refused

Reading a type expression hands the parts of its outermost form on to be read in turn
(`HandsOn`).  The brackets of a text are paired up before it is taken apart; the scans that take it
apart only count them.  That is enough: whatever is handed on is properly nested
(`HasForm.wellNested_of_mem_parts`), and behind the `[` of a generic type stands the bracket that
closes it (`exists_bracketAt_of_cutOpen`).  An error that does not come from the outermost form of a
text or from its base comes from a part of it (`cases_of_parseChars_eq_error`), so that by induction
on the length brackets that do not pair up are reported of the whole text or not at all
(`unbalanced_exact`).
-/

namespace ClassDiagram.TypeExpr

open ClassDiagram.Text

/-! ### Parts are properly nested -/

/-- The text `p` is handed on when `s` is read: it is a part of the outermost form of `s`. -/
def HandsOn (s p : List Char) : Prop := ∃ f, Form.of (trim s) = .ok f ∧ p ∈ f.parts

theorem Pieces.wellNested_of_mem {m p : List Char} {ps : List (List Char)} (h : Pieces m ps)
    (hp : p ∈ ps) : WellNested p := by
  cases h with
  | blank _ => cases hp
  | join _ _ hps => exact (hps p hp).1

theorem Pieces.wellNested_of_mem_map_trim {m p : List Char} {ps : List (List Char)}
    (h : Pieces m ps) (hp : p ∈ ps.map trim) : WellNested p := by
  obtain ⟨q, hq, rfl⟩ := List.mem_map.1 hp
  exact wellNested_trim_iff.2 (h.wellNested_of_mem hq)

theorem ArrowAt.wellNested_right {u l r : List Char} (hu : WellNested u) (h : ArrowAt u l r) :
    WellNested r := by
  rwa [h.eq_append, wellNested_append_iff h.wellNested, wellNested_cons_iff (by decide),
    wellNested_cons_iff (by decide)] at hu

/-- The parts of a form are properly nested, since a text is taken apart only where all of its
brackets are closed. -/
theorem HasForm.wellNested_of_mem_parts {u p : List Char} {f : Form} (h : HasForm u f)
    (hp : p ∈ f.parts) : WellNested p := by
  cases h with
  | empty | builtin | user => cases hp
  | inputs hu ha _ hps =>
    rcases List.mem_cons.1 hp with rfl | hp
    · exact ha.wellNested_right hu.wellNested
    · exact hps.wellNested_of_mem_map_trim hp
  | input hu ha _ =>
    rcases List.mem_cons.1 hp with rfl | hp
    · exact ha.wellNested_right hu.wellNested
    · obtain rfl := List.mem_singleton.1 hp
      exact wellNested_trim_iff.2 ha.wellNested
  | generic _ _ hb _ hps =>
    rcases List.mem_cons.1 hp with rfl | hp
    · exact wellNested_trim_iff.2 hb.base_wellNested
    · exact hps.wellNested_of_mem_map_trim hp
  | tuple _ _ _ _ hps => exact hps.wellNested_of_mem_map_trim hp

theorem HandsOn.wellNested {s p : List Char} (h : HandsOn s p) : WellNested p := by
  obtain ⟨f, hf, hp⟩ := h
  exact (Form.of_eq_ok_iff.1 hf).wellNested_of_mem_parts hp

theorem HandsOn.length_lt {s p : List Char} (h : HandsOn s p) : p.length < s.length := by
  obtain ⟨f, hf, hp⟩ := h
  exact Nat.lt_of_lt_of_le (Form.length_lt_of_mem_parts hf hp) (length_trim_le s)

/-! ### Errors of the outermost form -/

/-- Behind the first `[` outside parentheses, the scan for a closing bracket finds its partner. -/
theorem exists_bracketAt_of_cutOpen {u b rest : List Char} (hu : WellNested u)
    (h : cutOpen 0 u = some (b, rest)) :
    ∃ m w, cutClose 0 rest = some (m, w) ∧ BracketAt u b m w := by
  obtain ⟨m, w, rfl, hbracket⟩ := exists_bracketAt_of_cutsAt hu (cutOpen_eq_some_iff.1 h)
  exact ⟨m, w, cutClose_append_cons hbracket.params_wellNested rfl w, hbracket⟩

/-- A properly nested text has an outermost form, unless something follows the parameters of what
would be a generic type. -/
theorem Form.eq_trailingInput_of_of_eq_error {u : List Char} {e : ParseError} (hu : WellNested u)
    (h : Form.of u = .error e) : e = .trailingInput (String.ofList u) := by
  -- Nothing and builtin names have a form.
  have hne : u ≠ [] := by
    rintro rfl
    cases h
  have hbuiltin : ∀ b : Builtin, b.name.toList ≠ u := by
    rintro b rfl
    rw [Form.of_builtin] at h
    cases h
  rw [Form.of_isCompound ⟨hne, hbuiltin, hu⟩] at h
  cases harrow : cutArrow 0 u with
  | some sides =>
    rw [harrow] at h
    cases h
  | none =>
    rw [harrow] at h
    cases hopen : cutOpen 0 u with
    | some parts =>
      obtain ⟨b, rest⟩ := parts
      obtain ⟨m, w, hclose, -⟩ := exists_bracketAt_of_cutOpen hu hopen
      rw [hopen] at h
      dsimp only at h
      rw [Form.ofBracket, hclose] at h
      dsimp only at h
      split at h
      · cases h
      · cases h
        rfl
    | none =>
      rw [hopen] at h
      dsimp only at h
      split at h <;> cases h

/-! ### Errors of parts -/

/-- An error comes from the outermost form of a text, from the base of a generic type, or from a
part that is handed on. -/
theorem cases_of_parseChars_eq_error {s : List Char} {e : ParseError}
    (h : parseChars s = .error e) :
    Form.of (trim s) = .error e ∨
      (∃ base, e = .invalidGenericBase (String.ofList (trim s)) base) ∨
      ∃ p, HandsOn s p ∧ parseChars p = .error e := by
  rw [parseChars_eq] at h
  cases hf : Form.of (trim s) with
  | error e' =>
    rw [hf] at h
    cases h
    exact .inl rfl
  | ok f =>
    rw [hf] at h
    refine .inr ?_
    have hpart : ∀ p ∈ f.parts, parseChars p = .error e →
        ∃ p, HandsOn s p ∧ parseChars p = .error e := fun p hp he => ⟨p, ⟨f, hf, hp⟩, he⟩
    have hparts : ∀ ps, ps ⊆ f.parts → ps.mapM parseChars = .error e →
        ∃ p, HandsOn s p ∧ parseChars p = .error e := by
      intro ps hps he
      obtain ⟨p, hp, he⟩ := exists_of_mapM_eq_error he
      exact hpart p (hps hp) he
    cases f with
    | empty | builtin | user => cases h
    | generic base params =>
      rcases bind_eq_error_iff.1 h with hbase | ⟨t, -, h⟩
      · exact .inr (hpart base List.mem_cons_self hbase)
      · split at h
        · rcases bind_eq_error_iff.1 h with hparams | ⟨ts, -, hpure⟩
          · exact .inr (hparts params (List.subset_cons_self base params) hparams)
          · cases hpure
        · cases h
          exact .inl ⟨_, rfl⟩
    | function inputs output =>
      rcases bind_eq_error_iff.1 h with hinputs | ⟨ts, -, h⟩
      · exact .inr (hparts inputs (List.subset_cons_self output inputs) hinputs)
      · rcases bind_eq_error_iff.1 h with houtput | ⟨t, -, hpure⟩
        · exact .inr (hpart output List.mem_cons_self houtput)
        · cases hpure
    | tuple items =>
      rcases bind_eq_error_iff.1 h with hitems | ⟨ts, -, hpure⟩
      · exact .inr (hparts items (List.Subset.refl items) hitems)
      · cases hpure

/-- The errors about a text whose brackets pair up: something follows the parameters of a generic
type, or its base is neither a builtin type nor a name. -/
inductive IsMisplaced (u : List Char) : ParseError → Prop
  | trailingInput : IsMisplaced u (.trailingInput (String.ofList u))
  | invalidGenericBase (base : String) :
      IsMisplaced u (.invalidGenericBase (String.ofList u) base)

theorem exists_isMisplaced {s : List Char} {e : ParseError} (hs : WellNested (trim s))
    (h : parseChars s = .error e) :
    ∃ p, Relation.ReflTransGen HandsOn s p ∧ IsMisplaced (trim p) e := by
  induction hn : s.length using Nat.strong_induction_on generalizing s with
  | _ n ih =>
    rcases cases_of_parseChars_eq_error h with hform | ⟨base, rfl⟩ | ⟨p, hp, he⟩
    · obtain rfl := Form.eq_trailingInput_of_of_eq_error hs hform
      exact ⟨s, .refl, .trailingInput⟩
    · exact ⟨s, .refl, .invalidGenericBase base⟩
    · -- What is handed on is properly nested and shorter.
      have hlt : p.length < n := hn ▸ hp.length_lt
      obtain ⟨q, hq, hmisplaced⟩ := ih p.length hlt (wellNested_trim_iff.2 hp.wellNested) he rfl
      exact ⟨q, .head hp hq, hmisplaced⟩

/-! ### Brackets that do not pair up -/

theorem parseChars_of_not_wellNested {s : List Char} (h : ¬ WellNested (trim s)) :
    parseChars s = .error (.unbalanced (String.ofList (trim s))) := by
  have hne : trim s ≠ [] := by
    intro hnil
    exact h (hnil ▸ .nil)
  have hbuiltin : ∀ b : Builtin, b.name.toList ≠ trim s := by
    intro b hb
    exact h (hb ▸ (isWord_name b).wellNested)
  rw [parseChars_eq, Form.of_of_not_wellNested hne hbuiltin h]

/-- Reading the text never comes upon brackets that do not pair up. -/
structure StaysNested (s : List Char) : Prop where
  /-- What is handed on, at any depth, is properly nested. -/
  wellNested : ∀ p, Relation.TransGen HandsOn s p → WellNested p
  /-- Wherever a text is cut at a `[`, the bracket that closes it is found. -/
  exists_partner : ∀ p, Relation.ReflTransGen HandsOn s p → ∀ base rest,
    cutOpen 0 (trim p) = some (base, rest) → ∃ inner after,
      cutClose 0 rest = some (inner, after) ∧ rest = inner ++ ']' :: after ∧ WellNested inner
  /-- Only a base or what follows parameters can be wrong. -/
  error : ∀ e, parseChars s = .error e →
    ∃ p, Relation.ReflTransGen HandsOn s p ∧ IsMisplaced (trim p) e

theorem staysNested_of_wellNested {s : List Char} (hs : WellNested (trim s)) : StaysNested s := by
  have hdeep : ∀ p, Relation.TransGen HandsOn s p → WellNested p := by
    intro p hp
    obtain ⟨q, -, hqp⟩ := Relation.TransGen.tail'_iff.1 hp
    exact hqp.wellNested
  refine ⟨hdeep, ?_, fun e => exists_isMisplaced hs⟩
  intro p hp base rest hopen
  have hwell : WellNested (trim p) := by
    rcases Relation.reflTransGen_iff_eq_or_transGen.1 hp with rfl | hp
    · exact hs
    · exact wellNested_trim_iff.2 (hdeep p hp)
  obtain ⟨inner, after, hclose, hbracket⟩ := exists_bracketAt_of_cutOpen hwell hopen
  have hrest : rest = inner ++ ']' :: after := by
    have hcut := (cutOpen_eq_append hopen).symm.trans hbracket.eq_append
    simpa using hcut
  exact ⟨inner, after, hclose, hrest, hbracket.params_wellNested⟩

/-- Brackets that do not pair up are reported of a text just when its own do not, and then of the
whole of it; if they do, reading it stays among properly nested texts. -/
theorem unbalanced_exact (text : String) :
    (∀ x, parse text = .error (.unbalanced x) ↔
        ¬ WellNested (trim text.toList) ∧ x = trimmed text) ∧
      (WellNested (trim text.toList) → StaysNested text.toList) := by
  refine ⟨fun x => ⟨fun h => ?_, ?_⟩, staysNested_of_wellNested⟩
  · have hnot : ¬ WellNested (trim text.toList) := by
      intro hs
      obtain ⟨p, -, hmisplaced⟩ := exists_isMisplaced hs h
      cases hmisplaced
    have hx := h.symm.trans (parseChars_of_not_wellNested hnot)
    cases hx
    exact ⟨hnot, rfl⟩
  · rintro ⟨hnot, rfl⟩
    exact parseChars_of_not_wellNested hnot

/-- A list of handlers in which something follows the parameters of a generic type. -/
def handlersText : String := " (Seq[Map[A, B => C] D], (E)) "

theorem staysNested_handlersText :
    WellNested (trim handlersText.toList) ∧ StaysNested handlersText.toList ∧
      parse handlersText = .error (.trailingInput "Map[A, B => C] D") := by
  have hwell : WellNested (trim handlersText.toList) := isNested_iff.1 (by decide)
  exact ⟨hwell, (unbalanced_exact handlersText).2 hwell, by decide +kernel⟩

end ClassDiagram.TypeExpr
