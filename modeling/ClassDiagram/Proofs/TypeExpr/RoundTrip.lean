import ClassDiagram.Proofs.TypeExpr.Spelling

/-!
# Reading and printing in turn

A type whose names are plain is read back from its text (`parse_text`).  Not every type that is
read from some text is: the name of a generic type may have a comma of its own, and where such a
type is the only input of a function, it is printed in parentheses and the comma then separates two
inputs.  That is the only way in which a type that has been read is lost (`parse_text_eq_ok_iff`).
-/

namespace ClassDiagram

namespace TypeExpr

open ClassDiagram.Text

theorem parse_text_eq_ok_iff_derives {t t' : TypeExpr} :
    parse t.text = .ok t' ↔ Derives (trim (print t)) t' := by
  show parseChars (String.ofList (print t)).toList = .ok t' ↔ _
  rw [String.toList_ofList, parseChars_eq_ok_iff]

theorem mapLeaves_asRead {t : TypeExpr} (h : ∀ r ∈ t.leaves, r.package = "") :
    t.mapLeaves EntityRef.asRead = t := by
  apply mapLeaves_eq_self
  rintro ⟨name, package⟩ hr
  obtain rfl : package = "" := h _ hr
  rfl

/-! ### Commas outside brackets -/

theorem not_hasComma_empty : ¬ HasComma (print .empty) :=
  Counter.not_meets_nil (List.cons_ne_nil _ _)

theorem not_hasComma_name (b : Builtin) : ¬ HasComma (print (.builtin b)) :=
  Counter.not_meets_of_not_mem (not_mem_name b (by decide))

theorem not_hasComma_print_generic {base : TypeExpr} {params : List TypeExpr}
    (hbase : WellNested (print base)) (hparams : ∀ p ∈ params, WellNested (print p))
    (h : ¬ HasComma (print base)) : ¬ HasComma (print (.generic base params)) := by
  rw [print_generic]
  exact Counter.not_meets_append hbase h
    (Counter.not_meets_pair (wellNested_printList hparams) (by decide) (by decide))

theorem not_hasComma_print_tuple {items : List TypeExpr}
    (hitems : ∀ i ∈ items, WellNested (print i)) : ¬ HasComma (print (.tuple items)) :=
  Counter.not_meets_pair (wellNested_printList hitems) (by decide) (by decide)

theorem not_hasComma_print_function {inputs : List TypeExpr} {output : TypeExpr}
    (hinputs : ∀ i ∈ inputs, WellNested (print i)) (hcomma : ∀ i ∈ inputs, ¬ HasComma (print i))
    (houtput : ¬ HasComma (print output)) : ¬ HasComma (print (.function inputs output)) := by
  have hleft : ¬ HasComma (printInputs inputs) := by
    by_cases hb : IsBare inputs
    · obtain ⟨i, rfl, hi⟩ := hb
      rw [printInputs_singleton hi]
      exact hcomma i List.mem_cons_self
    · rw [printInputs_of_not_isBare hb]
      exact Counter.not_meets_pair (wellNested_printList hinputs) (by decide) (by decide)
  have hinputs' := wellNested_printInputs hinputs
  rw [print]
  refine Counter.not_meets_append (hinputs'.append wellNested_arrow) ?_ houtput
  exact Counter.not_meets_append hinputs' hleft (Counter.not_meets_of_not_mem (by decide))

/-! ### Types with plain names -/

/-- A name that can stand anywhere in a type: it is trimmed, no builtin type bears it, and it has no
brackets, no commas and no arrows. -/
structure IsPlainName (u : List Char) : Prop where
  ne_nil : u ≠ []
  trim_eq : trim u = u
  not_builtin : ∀ b : Builtin, b.name.toList ≠ u
  not_mem : ∀ c ∈ "[](),".toList, c ∉ u
  not_arrow : ¬ "=>".toList <:+: u

/-- A type that is written down in full: its generic types have a builtin type or a name for their
base, and nowhere is the empty type all there is in a list. -/
inductive Regular : TypeExpr → Prop where
  | empty : Regular .empty
  | builtin (b : Builtin) : Regular (.builtin b)
  | user (r : EntityRef) : Regular (.user r)
  | generic {base : TypeExpr} {params : List TypeExpr} : base.isAtom = true →
      params ≠ [.empty] → (∀ p ∈ params, Regular p) → Regular (.generic base params)
  | function {inputs : List TypeExpr} {output : TypeExpr} : (∀ i ∈ inputs, Regular i) →
      Regular output → Regular (.function inputs output)
  | tuple {items : List TypeExpr} : items ≠ [.empty] → (∀ i ∈ items, Regular i) →
      Regular (.tuple items)

instance (u : List Char) : Decidable (IsPlainName u) :=
  decidable_of_iff
    (u ≠ [] ∧ trim u = u ∧ (∀ b ∈ Builtin.all, b.name.toList ≠ u) ∧
      "[](),".toList.all (fun c => decide (c ∉ u)) = true ∧ ¬ "=>".toList <:+: u)
    ⟨fun ⟨h1, h2, h3, h4, h5⟩ => ⟨h1, h2, fun b => h3 b (Builtin.mem_all b),
        fun c hc => of_decide_eq_true (List.all_eq_true.1 h4 c hc), h5⟩,
      fun ⟨h1, h2, h3, h4, h5⟩ => ⟨h1, h2, fun b _ => h3 b,
        List.all_eq_true.2 fun c hc => decide_eq_true (h4 c hc), h5⟩⟩

theorem IsPlainName.isName {u : List Char} (h : IsPlainName u) : IsName u where
  ne_nil := h.ne_nil
  trim_eq := h.trim_eq
  not_builtin := h.not_builtin
  wellNested := by
    apply wellNested_of_forall_plain
    intro c hc
    rw [isPlain_iff]
    rintro x hx rfl
    have hsplit : "[](),".toList = "[]()".toList ++ [','] := rfl
    refine h.not_mem c ?_ hc
    rw [hsplit]
    exact List.mem_append_left _ hx
  not_hasArrow := by
    rintro ⟨a, b, rfl, -⟩
    exact h.not_arrow ⟨a, b, by simp⟩
  not_hasOpening := Counter.not_meets_of_not_mem (h.not_mem '[' (by decide))
  not_inParens := by
    intro m hm
    refine h.not_mem '(' (by decide) ?_
    rw [hm.eq_append]
    exact List.mem_cons_self

theorem readable_of_isAtom {t : TypeExpr} (ha : t.isAtom = true)
    (hn : ∀ r ∈ t.leaves, IsPlainName r.qualifiedName.toList) :
    Readable t ∧ ¬ HasComma (print t) := by
  cases t with
  | builtin b =>
    exact ⟨.builtin b, not_hasComma_name b⟩
  | user r =>
    have hr := hn r List.mem_cons_self
    exact ⟨.user hr.isName, Counter.not_meets_of_not_mem (hr.not_mem ',' (by decide))⟩
  | empty | generic | function | tuple => simp [isAtom] at ha

/-- A type written down in full with plain names can be read back and is printed without a comma
outside brackets. -/
theorem Regular.readable {t : TypeExpr} (ht : Regular t)
    (hn : ∀ r ∈ t.leaves, IsPlainName r.qualifiedName.toList) :
    Readable t ∧ ¬ HasComma (print t) := by
  -- The names in a list are those of its elements.
  have hlist : ∀ {ts : List TypeExpr}, (∀ r ∈ leavesList ts, IsPlainName r.qualifiedName.toList) →
      (∀ t ∈ ts, (∀ r ∈ t.leaves, IsPlainName r.qualifiedName.toList) →
        Readable t ∧ ¬ HasComma (print t)) →
      (∀ t ∈ ts, Readable t) ∧ ∀ t ∈ ts, ¬ HasComma (print t) := by
    intro ts hts ih
    have hboth : ∀ t ∈ ts, Readable t ∧ ¬ HasComma (print t) := fun t ht =>
      ih t ht fun r hr => hts r (leaves_subset_leavesList ht hr)
    exact ⟨fun t ht => (hboth t ht).1, fun t ht => (hboth t ht).2⟩
  induction ht with
  | empty => exact ⟨.empty, not_hasComma_empty⟩
  | builtin b => exact readable_of_isAtom rfl hn
  | user r => exact readable_of_isAtom rfl hn
  | generic hatom hne _ ih =>
    rw [leaves] at hn
    obtain ⟨hbase, hcomma⟩ := readable_of_isAtom hatom fun r hr => hn r (List.mem_append_left _ hr)
    obtain ⟨hparams, hsep⟩ := hlist (fun r hr => hn r (List.mem_append_right _ hr)) ih
    refine ⟨.generic hatom hbase hne hparams hsep, ?_⟩
    exact not_hasComma_print_generic (wellNested_print hbase)
      (fun p hp => wellNested_print (hparams p hp)) hcomma
  | function _ _ ihinputs ihoutput =>
    rw [leaves] at hn
    obtain ⟨hinputs, hsep⟩ := hlist (fun r hr => hn r (List.mem_append_left _ hr)) ihinputs
    obtain ⟨houtput, hcomma⟩ := ihoutput fun r hr => hn r (List.mem_append_right _ hr)
    refine ⟨.function hinputs (.inr hsep) houtput, ?_⟩
    exact not_hasComma_print_function (fun i hi => wellNested_print (hinputs i hi)) hsep hcomma
  | tuple hne _ ih =>
    obtain ⟨hitems, hsep⟩ := hlist hn ih
    refine ⟨.tuple hne hitems hsep, ?_⟩
    exact not_hasComma_print_tuple fun i hi => wellNested_print (hitems i hi)

/-- A type written down in full with plain names is read back from its text, but for the packages:
a name printed with its package is read as one name without a package. -/
theorem parse_text {t : TypeExpr} (ht : Regular t)
    (hn : ∀ r ∈ t.leaves, IsPlainName r.qualifiedName.toList) :
    parse t.text = .ok (t.mapLeaves EntityRef.asRead) ∧
      ((∀ r ∈ t.leaves, r.package = "") → parse t.text = .ok t) := by
  have hread : parse t.text = .ok (t.mapLeaves EntityRef.asRead) :=
    parse_text_eq_ok_iff_derives.2 (derives_print (ht.readable hn).1)
  refine ⟨hread, fun hp => ?_⟩
  rw [hread, mapLeaves_asRead hp]

/-- The type written `(java.time.Instant[], X => ) => (Option[Int], )`: a generic type without
parameters, a function without output, and nothing beside another element. -/
def handler : TypeExpr :=
  .function [.generic (.user ⟨"Instant", "java.time"⟩) [], .function [.user ⟨"X", ""⟩] .empty]
    (.tuple [.optionOf (.builtin .int), .empty])

theorem parse_text_handler :
    Regular handler ∧ (∀ r ∈ handler.leaves, IsPlainName r.qualifiedName.toList) ∧
      parse handler.text = .ok (handler.mapLeaves EntityRef.asRead) := by
  have hregular : Regular handler := by
    refine .function ?_ (.tuple (by simp) ?_)
    · rw [List.forall_mem_cons, List.forall_mem_singleton]
      refine ⟨.generic rfl (by simp) (by simp), .function ?_ .empty⟩
      rw [List.forall_mem_singleton]
      exact .user _
    · rw [List.forall_mem_cons, List.forall_mem_singleton]
      refine ⟨.generic rfl (by simp) ?_, .empty⟩
      rw [List.forall_mem_singleton]
      exact .builtin _
  have hplain : ∀ r ∈ handler.leaves, IsPlainName r.qualifiedName.toList := by decide
  exact ⟨hregular, hplain, (parse_text hregular hplain).1⟩

/-! ### Types that have been read -/

/-- The function, or one that it leads to, has a single input that is a generic type under a name
with a comma outside brackets.  Printed in parentheses, that input becomes two. -/
inductive HasSplitInput : TypeExpr → Prop where
  | input {r : EntityRef} {params : List TypeExpr} {output : TypeExpr} :
      HasComma r.qualifiedName.toList →
      HasSplitInput (.function [.generic (.user r) params] output)
  | output {inputs : List TypeExpr} {output : TypeExpr} : HasSplitInput output →
      HasSplitInput (.function inputs output)

theorem exists_mem_zip {α β : Type} {as : List α} {bs : List β} (h : as.length = bs.length) {b : β}
    (hb : b ∈ bs) : ∃ a, (a, b) ∈ as.zip bs := by
  rw [← List.map_snd_zip (Nat.le_of_eq h.symm)] at hb
  obtain ⟨⟨a, b'⟩, hab, rfl⟩ := List.mem_map.1 hb
  exact ⟨a, hab⟩

theorem HasForm.eq_of_user {u n : List Char} (h : HasForm u (.user n)) : u = n := by
  cases h
  rfl

/-- Every reference in a type that has been read is a name that stands for itself; it is trimmed if
the text is. -/
theorem Derives.exists_name {u : List Char} {t : TypeExpr} (h : Derives u t) :
    ∀ r ∈ t.leaves, ∃ n, HasForm n (.user n) ∧ (trim u = u → trim n = n) ∧
      r = EntityRef.unqualified (String.ofList n) := by
  -- The parts in a list are trimmed, whether or not the text is.
  have hlist : ∀ {ps : List (List Char)} {ts : List TypeExpr}, ps.length = ts.length →
      (∀ p ∈ ps, trim p = p) →
      (∀ p t, (p, t) ∈ ps.zip ts → ∀ r ∈ t.leaves, ∃ n, HasForm n (.user n) ∧
        (trim p = p → trim n = n) ∧ r = EntityRef.unqualified (String.ofList n)) →
      ∀ r ∈ leavesList ts, ∃ n, HasForm n (.user n) ∧ trim n = n ∧
        r = EntityRef.unqualified (String.ofList n) := by
    intro ps ts hlen htrim ih r hr
    rw [leavesList_eq_flatMap] at hr
    obtain ⟨t, ht, hr⟩ := List.mem_flatMap.1 hr
    obtain ⟨p, hp⟩ := exists_mem_zip hlen ht
    obtain ⟨n, hn, htrims, hname⟩ := ih p t hp r hr
    exact ⟨n, hn, htrims (htrim p (List.of_mem_zip hp).1), hname⟩
  induction h with
  | empty | builtin => intro r hr; simp [leaves] at hr
  | user hform =>
    intro r hr
    obtain rfl := hform.eq_of_user
    exact ⟨_, hform, id, List.mem_singleton.1 hr⟩
  | generic hform _ _ hlen _ ihbase ihparams =>
    intro r hr
    obtain ⟨hbase, hparams⟩ := hform.trim_eq
    rcases List.mem_append.1 hr with hr | hr
    · obtain ⟨n, hn, htrim, hname⟩ := ihbase r hr
      exact ⟨n, hn, fun _ => htrim hbase, hname⟩
    · obtain ⟨n, hn, htrim, hname⟩ := hlist hlen hparams ihparams r hr
      exact ⟨n, hn, fun _ => htrim, hname⟩
  | function hform hlen _ _ ihinputs ihoutput =>
    intro r hr
    rcases List.mem_append.1 hr with hr | hr
    · obtain ⟨n, hn, htrim, hname⟩ := hlist hlen hform.trim_eq ihinputs r hr
      exact ⟨n, hn, fun _ => htrim, hname⟩
    · obtain ⟨n, hn, htrim, hname⟩ := ihoutput r hr
      exact ⟨n, hn, fun _ => htrim (trim_trim _), hname⟩
  | tuple hform hlen _ ih =>
    intro r hr
    obtain ⟨n, hn, htrim, hname⟩ := hlist hlen hform.trim_eq ih r hr
    exact ⟨n, hn, fun _ => htrim, hname⟩

theorem Derives.package_eq {u : List Char} {t : TypeExpr} (h : Derives u t) :
    ∀ r ∈ t.leaves, r.package = "" := by
  intro r hr
  obtain ⟨n, -, -, rfl⟩ := h.exists_name r hr
  rfl

theorem HasForm.isName {u n : List Char} (h : HasForm u (.user n)) (hu : trim u = u) :
    IsName n := by
  cases h with
  | user hc ha hb hp =>
    exact {
      ne_nil := hc.ne_nil
      trim_eq := hu
      wellNested := hc.wellNested
      not_hasArrow := (forall_not_arrowAt_iff hc.wellNested).1 ha
      not_hasOpening := (forall_not_bracketAt_iff hc.wellNested).1 hb
      not_inParens := hp
      not_builtin := hc.not_builtin }

/-- Only nothing is read as the empty type. -/
theorem Derives.eq_nil_of_empty {u : List Char} (h : Derives u .empty) : u = [] := by
  cases h with
  | empty hform =>
    cases hform
    rfl

/-- How a type is printed that has been read from the text `u`.  Only a comma that stands outside
brackets in `u` can split an input. -/
structure Reprinted (u : List Char) (t : TypeExpr) : Prop where
  readable : ¬ HasSplitInput t → Readable t
  not_hasSplitInput : ¬ HasComma u → ¬ HasSplitInput t
  not_hasComma : ¬ HasComma u → ¬ HasComma (print t)

theorem not_hasSplitInput_of_ne {t : TypeExpr} (h : ∀ inputs output, t ≠ .function inputs output) :
    ¬ HasSplitInput t := by
  intro hs
  cases hs with
  | input | output => exact h _ _ rfl

theorem Reprinted.of_ne_function {u : List Char} {t : TypeExpr}
    (h : ∀ inputs output, t ≠ .function inputs output) (ht : Readable t)
    (hc : ¬ HasComma u → ¬ HasComma (print t)) : Reprinted u t where
  readable _ := ht
  not_hasSplitInput _ := not_hasSplitInput_of_ne h
  not_hasComma := hc

section Lists

variable {m : List Char} {ps : List (List Char)} {ts : List TypeExpr} (hps : Pieces m ps)
  (hlen : (ps.map trim).length = ts.length)

include hps hlen

/-- The pieces of a list have no commas of their own. -/
theorem Pieces.readable (h : ∀ p t, (p, t) ∈ (ps.map trim).zip ts → Reprinted p t) :
    (∀ t ∈ ts, Readable t) ∧ ∀ t ∈ ts, ¬ HasComma (print t) := by
  have hpiece : ∀ t ∈ ts, ∃ p, ¬ HasComma p ∧ Reprinted p t := by
    intro t ht
    obtain ⟨p, hp⟩ := exists_mem_zip hlen ht
    refine ⟨p, ?_, h p t hp⟩
    obtain ⟨q, hq, rfl⟩ := List.mem_map.1 (List.of_mem_zip hp).1
    cases hps with
    | blank => exact absurd hq List.not_mem_nil
    | join _ _ hall => exact fun hc => (hall q hq).2 hc.of_trim
  constructor
  · intro t ht
    obtain ⟨p, hp, hrep⟩ := hpiece t ht
    exact hrep.readable (hrep.not_hasSplitInput hp)
  · intro t ht
    obtain ⟨p, hp, hrep⟩ := hpiece t ht
    exact hrep.not_hasComma hp

/-- Nothing at all is read as no list, not as a list of nothing. -/
theorem Pieces.ne_singleton_empty (h : ∀ p t, (p, t) ∈ (ps.map trim).zip ts → Derives p t) :
    ts ≠ [.empty] := by
  rintro rfl
  cases hps with
  | blank => simp at hlen
  | join hblank =>
    match ps, hlen with
    | [q], _ =>
      have hnil : trim q = [] := (h (trim q) .empty (by simp)).eq_nil_of_empty
      rw [List.intercalate_singleton, (trim_eq_nil_iff q).1 hnil] at hblank
      exact Bool.noConfusion hblank

end Lists

theorem ArrowAt.not_hasComma_trim {u l r : List Char} (h : ArrowAt u l r) (hu : ¬ HasComma u) :
    ¬ HasComma (trim r) := by
  intro hr
  apply hu
  have happ : u = (l ++ ['=', '>']) ++ r := by rw [h.eq_append]; simp
  rw [happ]
  have hplain : WellNested ['=', '>'] := wellNested_of_all_plain (by decide)
  exact hr.of_trim.append_left (h.wellNested.append hplain)

theorem ArrowAt.not_hasArrow_trim {u l r : List Char} (h : ArrowAt u l r) (hu : WellNested u) :
    ¬ HasArrow (trim l) := by
  have hcut := (arrowAt_iff_cutsAt hu).1 h
  obtain ⟨-, -, hfirst⟩ := (Counter.cutsAt_iff unbordered_arrow).1 hcut
  exact fun hl => hfirst hl.of_trim

/-- A function is printed as it has been read if its inputs and its output are. -/
theorem Reprinted.function {u l r : List Char} {inputs : List TypeExpr} {output : TypeExpr}
    (ha : ArrowAt u l r) (hinputs : ∀ i ∈ inputs, Readable i)
    (hsplit : ¬ HasSplitInput (.function inputs output) →
      IsBare inputs ∨ ∀ i ∈ inputs, ¬ HasComma (print i))
    (hcomma : ¬ HasComma u → ∀ i ∈ inputs, ¬ HasComma (print i))
    (hout : Reprinted (trim r) output) : Reprinted u (.function inputs output) where
  readable h := .function hinputs (hsplit h) (hout.readable fun ho => h (.output ho))
  not_hasSplitInput hu := by
    intro h
    cases h with
    | input hr =>
      -- The comma in the name would be one in the printed input.
      refine hcomma hu _ List.mem_cons_self ?_
      rw [print_generic]
      exact Counter.Meets.append_right hr _
    | output ho => exact hout.not_hasSplitInput (ha.not_hasComma_trim hu) ho
  not_hasComma hu :=
    not_hasComma_print_function (fun i hi => wellNested_print (hinputs i hi)) (hcomma hu)
      (hout.not_hasComma (ha.not_hasComma_trim hu))

theorem Derives.ne_function {u : List Char} {t : TypeExpr} (h : Derives u t) (hu : WellNested u)
    (ha : ¬ HasArrow u) : ∀ inputs output, t ≠ .function inputs output := by
  rintro inputs output rfl
  cases h with
  | function hform =>
    cases hform with
    | inputs _ harrow | input _ harrow =>
      exact (forall_not_arrowAt_iff hu).2 ha _ _ harrow

/-- An input that stands in front of the arrow without parentheses, but is printed in parentheses,
is a generic type. -/
theorem isBare_or_not_hasComma {l : List Char} {i output : TypeExpr}
    (hp : ∀ m, ¬ InParens l m) (hd : Derives l i) (hi : Readable i)
    (hfun : ∀ inputs output, i ≠ .function inputs output)
    (hsplit : ¬ HasSplitInput (.function [i] output)) :
    IsBare [i] ∨ ∀ j ∈ [i], ¬ HasComma (print j) := by
  cases hi with
  | empty | builtin | user => exact .inl ⟨_, rfl, rfl⟩
  | function => exact absurd rfl (hfun _ _)
  | tuple =>
    -- A tuple is read from a text in parentheses only.
    cases hd with
    | tuple hform =>
      cases hform with
      | tuple _ _ _ hm => exact absurd hm (hp _)
  | @generic base params hatom hbase _ hparams =>
    right
    intro j hj
    rw [List.mem_singleton.1 hj]
    refine not_hasComma_print_generic (wellNested_print hbase)
      (fun p hp => wellNested_print (hparams p hp)) ?_
    cases base with
    | builtin b => exact not_hasComma_name b
    | user r => exact fun hr => hsplit (.input hr)
    | empty | generic | function | tuple => simp [isAtom] at hatom

theorem Reprinted.function_input {u l r : List Char} {i output : TypeExpr} (hu : WellNested u)
    (ha : ArrowAt u l r) (hp : ∀ m, ¬ InParens (trim l) m) (hd : Derives (trim l) i)
    (hi : Reprinted (trim l) i) (hout : Reprinted (trim r) output) :
    Reprinted u (.function [i] output) := by
  have hfun : ∀ inputs output, i ≠ .function inputs output :=
    hd.ne_function (wellNested_trim_iff.2 ha.wellNested) (ha.not_hasArrow_trim hu)
  have hread : Readable i := hi.readable (not_hasSplitInput_of_ne hfun)
  refine .function ha ?_ ?_ ?_ hout
  · intro j hj
    rwa [List.mem_singleton.1 hj]
  · exact isBare_or_not_hasComma hp hd hread hfun
  · intro hcu j hj
    rw [List.mem_singleton.1 hj]
    refine hi.not_hasComma fun hcl => hcu ?_
    rw [ha.eq_append]
    exact hcl.of_trim.append_right _

theorem Reprinted.generic {u b m w : List Char} {t : TypeExpr} {ts : List TypeExpr}
    (hb : BracketAt u b m w) (hatom : t.isAtom = true) (ht : Reprinted (trim b) t)
    (hne : ts ≠ [.empty]) (hread : ∀ t ∈ ts, Readable t) (hsep : ∀ t ∈ ts, ¬ HasComma (print t)) :
    Reprinted u (.generic t ts) := by
  have hbase : Readable t := by
    refine ht.readable (not_hasSplitInput_of_ne ?_)
    rintro inputs output rfl
    exact Bool.noConfusion hatom
  refine .of_ne_function (by simp) (.generic hatom hbase hne hread hsep) fun hu => ?_
  apply not_hasComma_print_generic (wellNested_print hbase)
  · exact fun p hp => wellNested_print (hread p hp)
  · -- A comma in the base is a comma in the text.
    refine ht.not_hasComma fun hc => hu ?_
    rw [hb.eq_append]
    exact hc.of_trim.append_right _

theorem Derives.reprinted {u : List Char} {t : TypeExpr} (h : Derives u t) (hu : trim u = u) :
    Reprinted u t := by
  -- The induction is on trimmed texts, and the parts in a list are trimmed.
  have hzip : ∀ {ps : List (List Char)} {ts : List TypeExpr},
      (∀ p t, (p, t) ∈ (ps.map trim).zip ts → trim p = p → Reprinted p t) →
      ∀ p t, (p, t) ∈ (ps.map trim).zip ts → Reprinted p t := by
    intro ps ts ih p t hpt
    obtain ⟨q, -, rfl⟩ := List.mem_map.1 (List.of_mem_zip hpt).1
    exact ih _ t hpt (trim_trim q)
  induction h with
  | empty hform => exact .of_ne_function (by simp) .empty fun _ => not_hasComma_empty
  | @builtin u b hform => exact .of_ne_function (by simp) (.builtin b) fun _ => not_hasComma_name b
  | @user u n hform =>
    have hprint : print (.user (EntityRef.unqualified (String.ofList n))) = n :=
      String.toList_ofList
    refine .of_ne_function (by simp) (.user ?_) fun hc => ?_
    · -- The name is printed as it has been read.
      show IsName (print (.user (EntityRef.unqualified (String.ofList n))))
      rw [hprint]
      exact hform.isName hu
    · rw [hprint]
      cases hform
      exact hc
  | generic hform _ hatom hlen hparams ihbase ihparams =>
    cases hform with
    | generic _ _ hb _ hps =>
      obtain ⟨hread, hsep⟩ := hps.readable hlen (hzip ihparams)
      have hne := hps.ne_singleton_empty hlen hparams
      exact .generic hb hatom (ihbase (trim_trim _)) hne hread hsep
  | @function u r ps ts t hform hlen hinputs _ ihinputs ihoutput =>
    cases hform with
    | inputs _ ha _ hps =>
      obtain ⟨hread, hsep⟩ := hps.readable hlen (hzip ihinputs)
      exact .function ha hread (fun _ => .inr hsep) (fun _ => hsep) (ihoutput (trim_trim r))
    | @input _ l _ hc ha hp =>
      match ts, hlen with
      | [i], _ =>
        have hmem : (trim l, i) ∈ [trim l].zip [i] := List.mem_singleton.2 rfl
        exact .function_input hc.wellNested ha hp (hinputs _ i hmem)
          (ihinputs _ i hmem (trim_trim l)) (ihoutput (trim_trim r))
  | tuple hform hlen hitems ih =>
    cases hform with
    | tuple _ _ _ _ hps =>
      obtain ⟨hread, hsep⟩ := hps.readable hlen (hzip ih)
      have hne := hps.ne_singleton_empty hlen hitems
      refine .of_ne_function (by simp) (.tuple hne hread hsep) fun _ => ?_
      exact not_hasComma_print_tuple fun i hi => wellNested_print (hread i hi)

/-! ### Types that are not read back -/

/-- Where a printed function is read as itself, its output is, and inputs printed in parentheses are
the pieces between them. -/
theorem Derives.print_function {inputs : List TypeExpr} {output : TypeExpr}
    (hi : ∀ i ∈ inputs, Readable i)
    (h : Derives (trim (print (.function inputs output))) (.function inputs output)) :
    Derives (trim (print output)) output ∧
      (¬ IsBare inputs → ∃ ps, Pieces (printList inputs) ps ∧ ps.length = inputs.length) := by
  have hnested : ∀ i ∈ inputs, WellNested (print i) := fun i h => wellNested_print (hi i h)
  have hleft := wellNested_printInputs hnested
  -- The arrow that is found is the one that has been printed.
  have hcut : WellNested (trim (print (.function inputs output))) → ∀ l r,
      ArrowAt (trim (print (.function inputs output))) l r →
        trim l = trim (printInputs inputs) ∧ trim r = trim (print output) := by
    intro hwell l r hlr
    have houtput : WellNested (print output) := by
      rwa [wellNested_trim_iff, print, wellNested_append_iff (hleft.append wellNested_arrow)] at hwell
    obtain ⟨l', r', hprinted, hl, hr⟩ := exists_arrowAt hleft (not_hasArrow_printInputs hi) houtput
    have hcut := (arrowAt_iff_cutsAt hwell).1 hlr
    obtain ⟨rfl, rfl⟩ := hcut.unique ((arrowAt_iff_cutsAt hwell).1 hprinted)
    exact ⟨hl, hr⟩
  generalize trim (print (.function inputs output)) = u at h hcut
  cases h with
  | @function _ r _ _ _ hform hlen _ hout =>
    cases hform with
    | @inputs _ l _ m ps hc ha hm hps =>
      obtain ⟨hl, hr⟩ := hcut hc.wellNested l r ha
      rw [hr] at hout
      refine ⟨hout, fun hb => ⟨ps, ?_, by rwa [List.length_map] at hlen⟩⟩
      rw [printInputs_of_not_isBare hb, trim_cons_append_singleton _ (by decide) (by decide),
        hm.eq_append, List.cons.injEq] at hl
      rwa [← List.append_cancel_right hl.2]
    | @input _ l _ hc ha hp =>
      -- One input without parentheses is read: it has not been printed in parentheses.
      obtain ⟨hl, hr⟩ := hcut hc.wellNested l r ha
      rw [hr] at hout
      refine ⟨hout, fun hb => absurd ?_ (hp (printList inputs))⟩
      rw [printInputs_of_not_isBare hb, trim_cons_append_singleton _ (by decide) (by decide)] at hl
      exact ⟨hl, wellNested_printList hnested⟩

/-- The inputs of a function that has been read can be read back, even if the function cannot. -/
theorem Derives.function_parts {u : List Char} {inputs : List TypeExpr} {output : TypeExpr}
    (h : Derives u (.function inputs output)) :
    (∀ i ∈ inputs, Readable i) ∧ ∃ r, Derives (trim r) output := by
  cases h with
  | function hform hlen hinputs hout =>
    refine ⟨?_, _, hout⟩
    have hrep : ∀ p t, (p, t) ∈ _ → Reprinted p t := fun p t hpt =>
      (hinputs p t hpt).reprinted (hform.trim_eq p (List.of_mem_zip hpt).1)
    cases hform with
    | inputs _ _ _ hps => exact (hps.readable hlen hrep).1
    | @input _ l _ hc ha hp =>
      intro i hi
      obtain ⟨p, hp⟩ := exists_mem_zip hlen hi
      obtain rfl := List.mem_singleton.1 (List.of_mem_zip hp).1
      refine (hrep _ i hp).readable (not_hasSplitInput_of_ne ?_)
      exact (hinputs _ i hp).ne_function (wellNested_trim_iff.2 ha.wellNested)
        (ha.not_hasArrow_trim hc.wellNested)

/-- A type with an input that is split when it is printed is not read back. -/
theorem HasSplitInput.not_derives_print {u : List Char} {t : TypeExpr} (hs : HasSplitInput t)
    (h : Derives u t) : ¬ Derives (trim (print t)) t := by
  induction hs generalizing u with
  | @input r params output hr =>
    intro hprint
    obtain ⟨hread, -⟩ := h.function_parts
    obtain ⟨-, hpieces⟩ := hprint.print_function hread
    obtain ⟨ps, hps, hlen⟩ := hpieces fun ⟨i, hi, hic⟩ => by
      obtain rfl := List.singleton_inj.1 hi
      exact Bool.noConfusion hic
    -- One input takes one piece, but a piece has no comma.
    rw [printList, printRest, List.append_nil, print_generic] at hps
    generalize hm : print (.user r) ++ '[' :: (printList params ++ [']']) = m at hps
    cases hps with
    | blank => simp at hlen
    | join _ _ hall =>
      obtain ⟨p, rfl⟩ := List.length_eq_one_iff.1 hlen
      refine (hall p List.mem_cons_self).2 ?_
      rw [List.intercalate_singleton] at hm
      rw [← hm]
      exact Counter.Meets.append_right hr _
  | output _ ih =>
    intro hprint
    obtain ⟨hread, r, hr⟩ := h.function_parts
    exact ih hr (hprint.print_function hread).1

/-- A type that has been read is read back from its text just when none of its inputs is split on
the way. -/
theorem parse_text_eq_ok_iff {s : String} {t : TypeExpr} (h : parse s = .ok t) :
    parse t.text = .ok t ↔ ¬ HasSplitInput t := by
  have hd : Derives (trim s.toList) t := parseChars_eq_ok_iff.1 h
  rw [parse_text_eq_ok_iff_derives]
  constructor
  · intro hprint hs
    exact hs.not_derives_print hd hprint
  · intro hs
    have hread := derives_print ((hd.reprinted (trim_trim _)).readable hs)
    rwa [mapLeaves_asRead hd.package_eq] at hread

/-- An input that is no container is printed as it stands, whatever commas it has. -/
theorem parse_text_bare_input :
    parse " (a), b=>c[ d,()]" =
        .ok (.function [.user ⟨"(a), b", ""⟩] (.generic (.user ⟨"c", ""⟩)
          [.user ⟨"d", ""⟩, .tuple []])) ∧
      (parse "(a), b => c[d, ()]" =
        .ok (.function [.user ⟨"(a), b", ""⟩] (.generic (.user ⟨"c", ""⟩)
          [.user ⟨"d", ""⟩, .tuple []])) ↔
        ¬ HasSplitInput (.function [.user ⟨"(a), b", ""⟩] (.generic (.user ⟨"c", ""⟩)
          [.user ⟨"d", ""⟩, .tuple []]))) := by
  have h : parse " (a), b=>c[ d,()]" =
      .ok (.function [.user ⟨"(a), b", ""⟩] (.generic (.user ⟨"c", ""⟩)
        [.user ⟨"d", ""⟩, .tuple []])) := by
    decide +kernel
  have hiff := parse_text_eq_ok_iff h
  have htext : text (.function [.user ⟨"(a), b", ""⟩] (.generic (.user ⟨"c", ""⟩)
      [.user ⟨"d", ""⟩, .tuple []])) = "(a), b => c[d, ()]" := by
    decide
  rw [htext] at hiff
  exact ⟨h, hiff⟩

/-- The single input named `a, b` is printed in parentheses and read back as two inputs. -/
theorem parse_text_split_input :
    parse "a, b[c] => d" =
        .ok (.function [.generic (.user ⟨"a, b", ""⟩) [.user ⟨"c", ""⟩]] (.user ⟨"d", ""⟩)) ∧
      text (.function [.generic (.user ⟨"a, b", ""⟩) [.user ⟨"c", ""⟩]] (.user ⟨"d", ""⟩)) =
        "(a, b[c]) => d" ∧
      parse "(a, b[c]) => d" =
        .ok (.function [.user ⟨"a", ""⟩, .generic (.user ⟨"b", ""⟩) [.user ⟨"c", ""⟩]]
          (.user ⟨"d", ""⟩)) := by
  refine ⟨?_, ?_, ?_⟩ <;> decide +kernel

end TypeExpr

end ClassDiagram
