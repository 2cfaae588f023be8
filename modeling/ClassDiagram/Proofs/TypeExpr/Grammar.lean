import ClassDiagram.Proofs.Outcome.Except
import ClassDiagram.Proofs.TypeExpr.Cuts
import ClassDiagram.TypeExpr.Parser

/-!
# The grammar of type expressions

The grammar is given by how a text is made of other texts, not by how it is scanned.  `HasForm`
holds the ordered rules for the outermost form of a trimmed text, each rule with the refusals of the
rules before it; `Derives` reads the parts of the form in turn.  `Form.of_eq_ok_iff` says that the
outermost form found by the scans is the one that the rules give.  Both readings make the same of
the parts of a form (`Form.Yields`), so that by induction on the length a text is read as a type
just when the grammar derives that type from its trim (`parseChars_eq_ok_iff`).
-/

namespace ClassDiagram.TypeExpr

open ClassDiagram.Text

/-! ### Parts of a text -/

/-- A text that has to be taken apart: it is not nothing, no builtin type bears it as its name, and
its brackets pair up. -/
structure IsCompound (u : List Char) : Prop where
  ne_nil : u ≠ []
  not_builtin : ∀ b : Builtin, b.name.toList ≠ u
  wellNested : WellNested u

/-- The text is `l`, an arrow and `r`, where `l` is properly nested and as short as possible. -/
structure ArrowAt (u l r : List Char) : Prop where
  eq_append : u = l ++ '=' :: '>' :: r
  wellNested : WellNested l
  shortest : ∀ l' r', u = l' ++ '=' :: '>' :: r' → WellNested l' → l.length ≤ l'.length

/-- The text is `b`, the text `m` in brackets and `w`, where `b` is properly nested without a `[`
outside parentheses and `m` is properly nested. -/
structure BracketAt (u b m w : List Char) : Prop where
  eq_append : u = b ++ '[' :: (m ++ ']' :: w)
  base_wellNested : WellNested b
  not_hasOpening : ¬ HasOpening b
  params_wellNested : WellNested m

/-- The text is the properly nested text `m` in parentheses. -/
structure InParens (u m : List Char) : Prop where
  eq_append : u = '(' :: (m ++ [')'])
  wellNested : WellNested m

/-- The parts `ps` of a text between its commas outside brackets.  A blank text has none. -/
inductive Pieces : List Char → List (List Char) → Prop where
  | blank {m : List Char} : isBlank m = true → Pieces m []
  | join {ps : List (List Char)} : isBlank ([','].intercalate ps) = false → ps ≠ [] →
      (∀ p ∈ ps, WellNested p ∧ ¬ HasComma p) → Pieces ([','].intercalate ps) ps

/-! ### The rules -/

/-- The outermost form of a trimmed text.  The rules are tried in order: every rule but the first
one for its kind of text refuses what the rules before it take. -/
inductive HasForm : List Char → Form → Prop where
  | empty : HasForm [] .empty
  | builtin (b : Builtin) : HasForm b.name.toList (.builtin b)
  | inputs {u l r m : List Char} {ps : List (List Char)} : IsCompound u → ArrowAt u l r →
      InParens (trim l) m → Pieces m ps → HasForm u (.function (ps.map trim) r)
  | input {u l r : List Char} : IsCompound u → ArrowAt u l r →
      (∀ m, ¬ InParens (trim l) m) → HasForm u (.function [trim l] r)
  | generic {u b m w : List Char} {ps : List (List Char)} : IsCompound u →
      (∀ l r, ¬ ArrowAt u l r) → BracketAt u b m w → isBlank w = true → Pieces m ps →
      HasForm u (.generic (trim b) (ps.map trim))
  | tuple {u m : List Char} {ps : List (List Char)} : IsCompound u →
      (∀ l r, ¬ ArrowAt u l r) → (∀ b m w, ¬ BracketAt u b m w) → InParens u m → Pieces m ps →
      HasForm u (.tuple (ps.map trim))
  | user {u : List Char} : IsCompound u → (∀ l r, ¬ ArrowAt u l r) →
      (∀ b m w, ¬ BracketAt u b m w) → (∀ m, ¬ InParens u m) → HasForm u (.user u)

/-- The types that the grammar derives from a trimmed text: each part of its form is read in turn,
and the base of a generic type has to be a builtin type or a name. -/
inductive Derives : List Char → TypeExpr → Prop where
  | empty {u : List Char} : HasForm u .empty → Derives u .empty
  | builtin {u : List Char} {b : Builtin} : HasForm u (.builtin b) → Derives u (.builtin b)
  | user {u n : List Char} : HasForm u (.user n) →
      Derives u (.user (EntityRef.unqualified (String.ofList n)))
  | generic {u b : List Char} {ps : List (List Char)} {t : TypeExpr} {ts : List TypeExpr} :
      HasForm u (.generic b ps) → Derives b t → t.isAtom = true → ps.length = ts.length →
      (∀ p t, (p, t) ∈ ps.zip ts → Derives p t) → Derives u (.generic t ts)
  | function {u r : List Char} {ps : List (List Char)} {ts : List TypeExpr} {t : TypeExpr} :
      HasForm u (.function ps r) → ps.length = ts.length →
      (∀ p t, (p, t) ∈ ps.zip ts → Derives p t) → Derives (trim r) t →
      Derives u (.function ts t)
  | tuple {u : List Char} {ps : List (List Char)} {ts : List TypeExpr} :
      HasForm u (.tuple ps) → ps.length = ts.length →
      (∀ p t, (p, t) ∈ ps.zip ts → Derives p t) → Derives u (.tuple ts)

/-! ### The scans find the parts -/

section Scans

variable {u : List Char} (hu : WellNested u)

include hu

/-- In a properly nested text, the beginnings at level zero are the properly nested ones, so that
both notions of the first arrow agree. -/
theorem arrowAt_iff_cutsAt {l r : List Char} :
    ArrowAt u l r ↔ Counter.brackets.CutsAt 0 ['=', '>'] u l r := by
  have hlevel : ∀ a b, u = a ++ b → (WellNested a ↔ 0 + Counter.brackets.level a = 0) := by
    intro a b hab
    rw [zero_add, Counter.brackets_level]
    exact ⟨depth_of_wellNested, wellNested_of_depth (hab ▸ hu)⟩
  constructor
  · intro h
    refine ⟨h.eq_append, (hlevel l _ h.eq_append).1 h.wellNested, ?_⟩
    intro a b hab ha
    exact h.shortest a b hab ((hlevel a _ hab).2 ha)
  · intro h
    refine ⟨h.eq_append, (hlevel l _ h.eq_append).2 h.level_eq, ?_⟩
    intro a b hab ha
    exact h.least a b hab ((hlevel a _ hab).1 ha)

theorem cutArrow_eq_some_iff_arrowAt {l r : List Char} :
    cutArrow 0 u = some (l, r) ↔ ArrowAt u l r := by
  rw [cutArrow_eq_some_iff, arrowAt_iff_cutsAt hu]

theorem forall_not_arrowAt_iff : (∀ l r, ¬ ArrowAt u l r) ↔ ¬ HasArrow u := by
  rw [HasArrow, ← Counter.exists_cutsAt_iff (List.cons_ne_nil _ _)]
  simp only [arrowAt_iff_cutsAt hu, not_exists]

/-- Where the first `[` outside parentheses is, the text before it is properly nested, and so is
the text up to the bracket that closes it. -/
theorem exists_bracketAt_of_cutsAt {b rest : List Char}
    (h : Counter.parens.CutsAt 0 ['['] u b rest) :
    ∃ m w, rest = m ++ ']' :: w ∧ BracketAt u b m w := by
  obtain ⟨rfl, hlevel, hfirst⟩ := (Counter.cutsAt_iff (unbordered_singleton '[')).1 h
  rw [zero_add] at hlevel
  have hb : WellNested b := by
    refine Counter.parens.wellNested_of_level hu hlevel ?_
    rintro a o x rfl ha ho
    -- The only opening bracket that is overlooked is the one that has not been met.
    by_cases hob : o = '['
    · subst hob
      exact absurd ⟨a, x, rfl, by rw [zero_add, ha]⟩ hfirst
    · have hop : o = '(' := by simpa [isOpening, hob] using ho
      subst hop
      decide
  have hrest := (wellNested_append_iff hb).1 hu
  obtain ⟨m, w, rfl, hm, -⟩ := WellNested.exists_of_cons (o := '[') rfl hrest
  exact ⟨m, w, rfl, rfl, hb, hfirst, hm⟩

omit hu in
theorem BracketAt.cutsAt {b m w : List Char} (h : BracketAt u b m w) :
    Counter.parens.CutsAt 0 ['['] u b (m ++ ']' :: w) := by
  refine (Counter.cutsAt_iff (unbordered_singleton '[')).2 ⟨h.eq_append, ?_, h.not_hasOpening⟩
  rw [zero_add, Counter.level_of_wellNested _ h.base_wellNested]

theorem forall_not_bracketAt_iff : (∀ b m w, ¬ BracketAt u b m w) ↔ ¬ HasOpening u := by
  rw [HasOpening, ← Counter.exists_cutsAt_iff (List.cons_ne_nil _ _)]
  constructor
  · rintro h ⟨b, rest, hcut⟩
    obtain ⟨m, w, -, hbr⟩ := exists_bracketAt_of_cutsAt hu hcut
    exact h b m w hbr
  · intro h b m w hbr
    exact h ⟨b, _, hbr.cutsAt⟩

theorem parenthesized?_eq_some_iff_inParens {m : List Char} :
    parenthesized? u = some m ↔ InParens u m := by
  rw [parenthesized?_eq_some_iff hu]
  exact ⟨fun h => ⟨h.1, h.2⟩, fun h => ⟨h.eq_append, h.wellNested⟩⟩

theorem parenthesized?_eq_none (h : ∀ m, ¬ InParens u m) : parenthesized? u = none := by
  rw [Option.eq_none_iff_forall_ne_some]
  intro m hm
  exact h m ((parenthesized?_eq_some_iff_inParens hu).1 hm)

theorem exists_pieces : ∃ ps, Pieces u ps ∧ chop u = ps.map trim := by
  by_cases hblank : isBlank u = true
  · exact ⟨[], .blank hblank, by rw [chop, if_pos hblank]; rfl⟩
  · -- The segments are the parts between the commas, since joined they give the text.
    refine ⟨segments 0 u, ?_, by rw [chop, if_neg hblank]⟩
    have hjoin := intercalate_segments 0 u
    have hpieces : Pieces ([','].intercalate (segments 0 u)) (segments 0 u) := by
      refine .join ?_ (segments_ne_nil 0 u) fun p hp => wellNested_of_mem_segments hu hp
      rw [hjoin]
      exact Bool.not_eq_true _ ▸ hblank
    rwa [hjoin] at hpieces

end Scans

theorem Pieces.chop_eq {m : List Char} {ps : List (List Char)} (h : Pieces m ps) :
    chop m = ps.map trim := by
  cases h with
  | blank hm => rw [chop, if_pos hm]; rfl
  | join hm hne hps =>
    rw [chop, if_neg (by rw [hm]; exact Bool.false_ne_true), segments_intercalate hne]
    exact fun p hp => ⟨depth_of_wellNested (hps p hp).1, (hps p hp).2⟩

/-! ### The outermost form -/

theorem ofName?_ofList_eq_some_iff {b : Builtin} {u : List Char} :
    Builtin.ofName? (String.ofList u) = some b ↔ b.name.toList = u := by
  rw [Builtin.ofName?_eq_some_iff]
  constructor
  · intro h
    rw [h, String.toList_ofList]
  · rintro rfl
    rw [String.ofList_toList]

theorem ofName?_ofList_eq_none_iff {u : List Char} :
    Builtin.ofName? (String.ofList u) = none ↔ ∀ b : Builtin, b.name.toList ≠ u := by
  simp only [Option.eq_none_iff_forall_ne_some, ne_eq, ofName?_ofList_eq_some_iff]

namespace Form

theorem of_builtin (b : Builtin) : of b.name.toList = .ok (builtin b) := by
  have hne : ¬ b.name.toList.isEmpty = true := by cases b <;> decide
  rw [of, if_neg hne, ofName?_ofList_eq_some_iff.2 rfl]

theorem of_of_not_wellNested {u : List Char} (hne : u ≠ [])
    (hb : ∀ b : Builtin, b.name.toList ≠ u) (hn : ¬ WellNested u) :
    of u = .error (.unbalanced (String.ofList u)) := by
  rw [of, if_neg (by simpa using hne), ofName?_ofList_eq_none_iff.2 hb]
  dsimp only
  rw [if_neg (by rwa [isNested_iff])]

section Compound

variable {u : List Char} (hu : IsCompound u)

include hu

/-- The scans for a compound text, in order. -/
theorem of_isCompound :
    of u =
      match cutArrow 0 u with
      | some (l, r) => .ok (ofSides l r)
      | none =>
        match cutOpen 0 u with
        | some (b, rest) => ofBracket u b rest
        | none =>
          match parenthesized? u with
          | some m => .ok (tuple (chop m))
          | none => .ok (user u) := by
  rw [of, if_neg (by simpa using hu.ne_nil), ofName?_ofList_eq_none_iff.2 hu.not_builtin]
  dsimp only
  exact if_pos (isNested_iff.2 hu.wellNested)

theorem of_arrowAt {l r : List Char} (h : ArrowAt u l r) : of u = .ok (ofSides l r) := by
  rw [of_isCompound hu, (cutArrow_eq_some_iff_arrowAt hu.wellNested).2 h]

variable (ha : ∀ l r, ¬ ArrowAt u l r)

include ha

theorem cutArrow_eq_none : cutArrow 0 u = none := by
  rw [Option.eq_none_iff_forall_ne_some]
  rintro ⟨l, r⟩ h
  exact ha l r ((cutArrow_eq_some_iff_arrowAt hu.wellNested).1 h)

theorem of_bracketAt {b m w : List Char} (h : BracketAt u b m w) :
    of u = if isBlank w then .ok (generic (trim b) (chop m))
      else .error (.trailingInput (String.ofList u)) := by
  rw [of_isCompound hu, cutArrow_eq_none hu ha]
  dsimp only
  rw [cutOpen_eq_some_iff.2 h.cutsAt]
  dsimp only
  rw [ofBracket, cutClose_append_cons h.params_wellNested rfl]

variable (hb : ∀ b m w, ¬ BracketAt u b m w)

include hb

omit ha in
theorem cutOpen_eq_none : cutOpen 0 u = none := by
  rw [Option.eq_none_iff_forall_ne_some]
  rintro ⟨b, rest⟩ h
  obtain ⟨m, w, -, hbr⟩ := exists_bracketAt_of_cutsAt hu.wellNested (cutOpen_eq_some_iff.1 h)
  exact hb b m w hbr

theorem of_inParens {m : List Char} (h : InParens u m) : of u = .ok (tuple (chop m)) := by
  rw [of_isCompound hu, cutArrow_eq_none hu ha]
  dsimp only
  rw [cutOpen_eq_none hu hb]
  dsimp only
  rw [(parenthesized?_eq_some_iff_inParens hu.wellNested).2 h]

theorem of_name (hp : ∀ m, ¬ InParens u m) : of u = .ok (user u) := by
  rw [of_isCompound hu, cutArrow_eq_none hu ha]
  dsimp only
  rw [cutOpen_eq_none hu hb]
  dsimp only
  rw [parenthesized?_eq_none hu.wellNested hp]

end Compound

section Sides

variable {l : List Char} (hl : WellNested l) (r : List Char)

include hl

theorem ofSides_inParens {m : List Char} (h : InParens (trim l) m) :
    ofSides l r = function (chop m) r := by
  unfold ofSides
  dsimp only
  rw [(parenthesized?_eq_some_iff_inParens (wellNested_trim_iff.2 hl)).2 h]

theorem ofSides_not_inParens (h : ∀ m, ¬ InParens (trim l) m) :
    ofSides l r = function [trim l] r := by
  unfold ofSides
  dsimp only
  rw [parenthesized?_eq_none (wellNested_trim_iff.2 hl) h]

end Sides

theorem hasForm_of_isCompound {u : List Char} (hu : IsCompound u) {f : Form} (h : of u = .ok f) :
    HasForm u f := by
  -- The rules in order: each case has the refusals of the cases before it.
  by_cases ha : ∃ l r, ArrowAt u l r
  · obtain ⟨l, r, ha⟩ := ha
    rw [of_arrowAt hu ha] at h
    obtain rfl : ofSides l r = f := by simpa using h
    by_cases hp : ∃ m, InParens (trim l) m
    · obtain ⟨m, hm⟩ := hp
      obtain ⟨ps, hps, hchop⟩ := exists_pieces hm.wellNested
      rw [ofSides_inParens ha.wellNested r hm, hchop]
      exact .inputs hu ha hm hps
    · have hp' : ∀ m, ¬ InParens (trim l) m := fun m hm => hp ⟨m, hm⟩
      rw [ofSides_not_inParens ha.wellNested r hp']
      exact .input hu ha hp'
  have ha' : ∀ l r, ¬ ArrowAt u l r := fun l r hlr => ha ⟨l, r, hlr⟩
  by_cases hb : ∃ b m w, BracketAt u b m w
  · obtain ⟨b, m, w, hb⟩ := hb
    obtain ⟨ps, hps, hchop⟩ := exists_pieces hb.params_wellNested
    rw [of_bracketAt hu ha' hb, hchop] at h
    split at h
    · next hw =>
      obtain rfl : generic (trim b) (ps.map trim) = f := by simpa using h
      exact .generic hu ha' hb hw hps
    · simp at h
  have hb' : ∀ b m w, ¬ BracketAt u b m w := fun b m w hbr => hb ⟨b, m, w, hbr⟩
  by_cases hp : ∃ m, InParens u m
  · obtain ⟨m, hm⟩ := hp
    obtain ⟨ps, hps, hchop⟩ := exists_pieces hm.wellNested
    rw [of_inParens hu ha' hb' hm, hchop] at h
    obtain rfl : tuple (ps.map trim) = f := by simpa using h
    exact .tuple hu ha' hb' hm hps
  · have hp' : ∀ m, ¬ InParens u m := fun m hm => hp ⟨m, hm⟩
    rw [of_name hu ha' hb' hp'] at h
    obtain rfl : user u = f := by simpa using h
    exact .user hu ha' hb' hp'

/-- The form that is found is the one that the text has. -/
theorem of_eq_ok_iff {u : List Char} {f : Form} : of u = .ok f ↔ HasForm u f := by
  constructor
  · intro h
    -- Nothing, a builtin name and unpaired brackets are told before any scan.
    by_cases hne : u = []
    · subst hne
      obtain rfl : empty = f := by simpa [of] using h
      exact .empty
    by_cases hb : ∃ b : Builtin, b.name.toList = u
    · obtain ⟨b, rfl⟩ := hb
      rw [of_builtin] at h
      obtain rfl : builtin b = f := by simpa using h
      exact .builtin b
    have hb' : ∀ b : Builtin, b.name.toList ≠ u := fun b hbu => hb ⟨b, hbu⟩
    by_cases hn : WellNested u
    · exact hasForm_of_isCompound ⟨hne, hb', hn⟩ h
    · rw [of_of_not_wellNested hne hb' hn] at h
      simp at h
  · intro h
    cases h with
    | empty => rfl
    | builtin b => exact of_builtin b
    | inputs hu ha hm hps =>
      rw [of_arrowAt hu ha, ofSides_inParens ha.wellNested _ hm, hps.chop_eq]
    | input hu ha hp => rw [of_arrowAt hu ha, ofSides_not_inParens ha.wellNested _ hp]
    | generic hu ha hb hw hps => rw [of_bracketAt hu ha hb, if_pos hw, hps.chop_eq]
    | tuple hu ha hb hm hps => rw [of_inParens hu ha hb hm, hps.chop_eq]
    | user hu ha hb hp => exact of_name hu ha hb hp

end Form

/-! ### Reading -/

/-- The parts of a form are trimmed already, but for the output of a function. -/
theorem HasForm.trim_eq {u : List Char} {f : Form} (h : HasForm u f) :
    match f with
    | .generic b ps => trim b = b ∧ ∀ p ∈ ps, trim p = p
    | .function ps _ | .tuple ps => ∀ p ∈ ps, trim p = p
    | _ => True := by
  have hmap : ∀ ps : List (List Char), ∀ p ∈ ps.map trim, trim p = p := by
    intro ps p hp
    obtain ⟨q, -, rfl⟩ := List.mem_map.1 hp
    exact trim_trim q
  cases h with
  | empty | builtin | user => trivial
  | inputs | tuple => exact hmap _
  | input =>
    intro p hp
    rw [List.mem_singleton.1 hp, trim_trim]
  | generic => exact ⟨trim_trim _, hmap _⟩

/-- The types that a form yields, where `R` relates its parts to types. -/
def Form.Yields (R : List Char → TypeExpr → Prop) : Form → TypeExpr → Prop
  | .empty, t => t = .empty
  | .builtin b, t => t = .builtin b
  | .user name, t => t = .user (EntityRef.unqualified (String.ofList name))
  | .generic base params, t => ∃ t' ts, R base t' ∧ t'.isAtom = true ∧ List.Forall₂ R params ts ∧
      t = .generic t' ts
  | .function inputs output, t => ∃ ts t', List.Forall₂ R inputs ts ∧ R output t' ∧
      t = .function ts t'
  | .tuple items, t => ∃ ts, List.Forall₂ R items ts ∧ t = .tuple ts

theorem Form.yields_congr {R S : List Char → TypeExpr → Prop} {f : Form} {t : TypeExpr}
    (h : ∀ p ∈ f.parts, ∀ t, R p t ↔ S p t) : f.Yields R t ↔ f.Yields S t := by
  cases f with
  | empty | builtin | user => exact Iff.rfl
  | generic base params =>
    have hbase : ∀ t, R base t ↔ S base t := h base List.mem_cons_self
    have hparams : ∀ ts, List.Forall₂ R params ts ↔ List.Forall₂ S params ts := fun ts =>
      forall₂_congr_of_mem fun p hp => h p (List.mem_cons_of_mem _ hp)
    simp only [Yields, hbase, hparams]
  | function inputs output =>
    have houtput : ∀ t, R output t ↔ S output t := h output List.mem_cons_self
    have hinputs : ∀ ts, List.Forall₂ R inputs ts ↔ List.Forall₂ S inputs ts := fun ts =>
      forall₂_congr_of_mem fun p hp => h p (List.mem_cons_of_mem _ hp)
    simp only [Yields, houtput, hinputs]
  | tuple items =>
    have hitems : ∀ ts, List.Forall₂ R items ts ↔ List.Forall₂ S items ts := fun ts =>
      forall₂_congr_of_mem h
    simp only [Yields, hitems]

/-- A text is read as what its form yields from the parts that are read. -/
theorem parseChars_eq_ok_iff_yields {s : List Char} {t : TypeExpr} :
    parseChars s = .ok t ↔
      ∃ f, Form.of (trim s) = .ok f ∧ f.Yields (fun p t => parseChars p = .ok t) t := by
  rw [parseChars_eq]
  cases hf : Form.of (trim s) with
  | error e => simp
  | ok f =>
    have hex : ∀ P : Form → Prop,
        (∃ f', (Except.ok f : Except ParseError Form) = .ok f' ∧ P f') ↔ P f := by
      simp
    rw [hex]
    cases f with
    | empty | builtin | user => simp [Form.Yields, eq_comm (a := t)]
    | generic base params =>
      dsimp only [Form.Yields]
      rw [bind_eq_ok_iff]
      refine exists_congr fun t' => ?_
      rw [exists_and_left]
      refine and_congr_right fun _ => ?_
      -- The parameters are only read if the base is an atom.
      split
      · next hatom =>
        simp [hatom, bind_eq_ok_iff, mapM_eq_ok_iff, pure, Except.pure, eq_comm (a := t)]
      · next hatom => simp [hatom, throw, throwThe, MonadExceptOf.throw]
    | function inputs output =>
      simp [Form.Yields, bind_eq_ok_iff, mapM_eq_ok_iff, pure, Except.pure, eq_comm (a := t)]
    | tuple items =>
      simp [Form.Yields, bind_eq_ok_iff, mapM_eq_ok_iff, pure, Except.pure, eq_comm (a := t)]

/-- The grammar derives what the form of a text yields from what is derived from its parts. -/
theorem derives_iff_yields {u : List Char} {t : TypeExpr} :
    Derives u t ↔ ∃ f, HasForm u f ∧ f.Yields (fun p t => Derives (trim p) t) t := by
  -- All parts but the output of a function are trimmed already.
  have hparts : ∀ {ps : List (List Char)} {ts : List TypeExpr}, (∀ p ∈ ps, trim p = p) →
      (List.Forall₂ (fun p t => Derives (trim p) t) ps ts ↔
        ps.length = ts.length ∧ ∀ p t, (p, t) ∈ ps.zip ts → Derives p t) := by
    intro ps ts hps
    rw [forall₂_congr_of_mem (S := Derives) fun p hp t => by rw [hps p hp], List.forall₂_iff_zip]
  constructor
  · intro h
    cases h with
    | empty hform | builtin hform | user hform => exact ⟨_, hform, rfl⟩
    | generic hform hbase hatom hlen hparams =>
      obtain ⟨htrim, htrims⟩ := hform.trim_eq
      refine ⟨_, hform, _, _, ?_, hatom, (hparts htrims).2 ⟨hlen, hparams⟩, rfl⟩
      show Derives (trim _) _
      rwa [htrim]
    | function hform hlen hinputs houtput =>
      exact ⟨_, hform, _, _, (hparts hform.trim_eq).2 ⟨hlen, hinputs⟩, houtput, rfl⟩
    | tuple hform hlen hitems => exact ⟨_, hform, _, (hparts hform.trim_eq).2 ⟨hlen, hitems⟩, rfl⟩
  · rintro ⟨f, hform, h⟩
    cases f with
    | empty => exact h ▸ .empty hform
    | builtin b => exact h ▸ .builtin hform
    | user name => exact h ▸ .user hform
    | generic base params =>
      obtain ⟨t', ts, hbase, hatom, hparams, rfl⟩ := h
      obtain ⟨htrim, htrims⟩ := hform.trim_eq
      rw [htrim] at hbase
      obtain ⟨hlen, hzip⟩ := (hparts htrims).1 hparams
      exact .generic hform hbase hatom hlen hzip
    | function inputs output =>
      obtain ⟨ts, t', hinputs, houtput, rfl⟩ := h
      obtain ⟨hlen, hzip⟩ := (hparts hform.trim_eq).1 hinputs
      exact .function hform hlen hzip houtput
    | tuple items =>
      obtain ⟨ts, hitems, rfl⟩ := h
      obtain ⟨hlen, hzip⟩ := (hparts hform.trim_eq).1 hitems
      exact .tuple hform hlen hzip

/-- What is read from a text is what the grammar derives from it. -/
theorem parseChars_eq_ok_iff {s : List Char} {t : TypeExpr} :
    parseChars s = .ok t ↔ Derives (trim s) t := by
  induction hn : s.length using Nat.strong_induction_on generalizing s t with
  | _ n ih =>
    rw [parseChars_eq_ok_iff_yields, derives_iff_yields]
    refine exists_congr fun f => ?_
    rw [Form.of_eq_ok_iff]
    refine and_congr_right fun hf => Form.yields_congr fun p hp t' => ?_
    -- Every part of the form is shorter than the text.
    have hlt : p.length < (trim s).length :=
      Form.length_lt_of_mem_parts (Form.of_eq_ok_iff.2 hf) hp
    have hle : (trim s).length ≤ s.length := length_trim_le s
    exact ih p.length (by omega) rfl

/-- A type expression is read as a type just when the grammar derives the type from what is left of
the expression without the white space around it. -/
theorem parse_eq_ok_iff {text : String} {t : TypeExpr} :
    parse text = .ok t ↔ Derives (trim text.toList) t :=
  parseChars_eq_ok_iff

end ClassDiagram.TypeExpr
