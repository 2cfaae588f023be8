import ClassDiagram.Proofs.TypeExpr.OffsetScan

/-!
# Slices that are always there

Whatever text is read by byte offsets, well nested or not, every slice that is taken lies within it
and between characters, and what comes of the slices is what comes of cutting the list of characters
(`close?_append_cons`, `parenthesized?_ofList`, `chop_ofList`).  A reading is `complete` when all of
its slices were there.  One call of the reader is complete and gives the type that is read from the
characters if that is so of the calls that it makes on the parts of the text (`readsAs_of_parts`);
the parts are shorter, so that it is so of every text (`readsAs`).
-/

namespace ClassDiagram.TypeExpr.Offset

open ClassDiagram.Text

/-! ### Brackets -/

theorem utf8Size_of_isOpening {c : Char} (h : isOpening c = true) : c.utf8Size = 1 := by
  simp only [isOpening, Bool.or_eq_true, decide_eq_true_eq] at h
  rcases h with rfl | rfl <;> rfl

theorem utf8Size_of_isClosing {c : Char} (h : isClosing c = true) : c.utf8Size = 1 := by
  simp only [isClosing, Bool.or_eq_true, decide_eq_true_eq] at h
  rcases h with rfl | rfl <;> rfl

/-- Behind an opening bracket, the bracket closing it stands after what the scan over characters
cuts off. -/
theorem close?_append_cons (before rest : List Char) {o : Char} (ho : isOpening o = true) :
    close? (String.ofList (before ++ o :: rest)) (byteSize before) =
      some ((cutClose 0 rest).map fun p => byteSize before + (1 + byteSize p.1)) := by
  have hclosing : isClosing o = false := isClosing_eq_false_of_isOpening ho
  have hstep : (0 : Int) + depthStep o = (0 : Nat) + 1 := by simp [depthStep, ho]
  rw [close?, slice?_rest]
  dsimp only [Option.bind_eq_bind, Option.bind_some]
  rw [String.toList_ofList, charOffsets, closeFrom, if_neg (by simp [hclosing]), hstep,
    closeFrom_charOffsets, utf8Size_of_isOpening ho, Option.map_map]
  rfl

/-- From any place of the text, the scan for a closing bracket takes a slice that is there. -/
theorem isSome_close? {s : String} {start : Nat} (h : String.Pos.Raw.IsValid s ⟨start⟩) :
    (close? s start).isSome := by
  obtain ⟨a, b, rfl, hstart⟩ := String.Pos.Raw.isValid_iff_exists_append.1 h
  obtain ⟨a, rfl⟩ := a.exists_eq_ofList
  obtain ⟨b, rfl⟩ := b.exists_eq_ofList
  have hsize : start = byteSize a := by
    have hidx := congrArg String.Pos.Raw.byteIdx hstart
    rwa [String.byteIdx_rawEndPos, utf8ByteSize_ofList] at hidx
  rw [close?, hsize, ← String.ofList_append, slice?_rest]
  rfl

/-- A closing bracket is the last octet of a text just when no character follows it. -/
theorem offset_eq_last_iff {inner after : List Char} {c : Char} (hc : isClosing c = true) :
    0 + (1 + byteSize inner) =
      (String.ofList ('(' :: (inner ++ c :: after))).utf8ByteSize - 1 ↔ after = [] := by
  have hopen : '('.utf8Size = 1 := rfl
  rw [utf8ByteSize_ofList, ← byteSize_eq_zero_iff]
  simp only [byteSize_cons, byteSize_append, hopen, utf8Size_of_isClosing hc]
  omega

theorem parenthesized?_ofList (s : List Char) :
    parenthesized? (String.ofList s) = some ((TypeExpr.parenthesized? s).map String.ofList) := by
  rw [parenthesized?, String.toList_ofList]
  split
  · next hhead =>
    obtain ⟨s, rfl⟩ := List.head?_eq_some_iff.1 hhead
    have hclose := close?_append_cons [] s (o := '(') rfl
    rw [List.nil_append, byteSize_nil] at hclose
    rw [hclose, TypeExpr.parenthesized?]
    dsimp only [Option.bind_eq_bind, Option.bind_some]
    cases hcut : cutClose 0 s with
    | none => rfl
    | some sides =>
      obtain ⟨inner, after⟩ := sides
      obtain ⟨c, hc, rfl⟩ := cutClose_eq_append hcut
      dsimp only [Option.map_some]
      rw [if_congr (offset_eq_last_iff hc) (by rfl) (by rfl)]
      cases after with
      | nil =>
        have hinner : slice? (String.ofList ('(' :: (inner ++ [c]))) 1 (1 + byteSize inner) =
            some (String.ofList inner) := slice?_append ['('] inner [c]
        rw [if_pos rfl, Nat.zero_add, hinner]
        rfl
      | cons d after => rfl
  · next hhead =>
    cases s with
    | nil => rfl
    | cons c s =>
      have hc : c ≠ '(' := by
        rintro rfl
        exact hhead rfl
      rw [TypeExpr.parenthesized?.eq_2]
      · rfl
      · intro s' hs
        exact hc (List.cons.inj hs).1

/-! ### Lists -/

theorem trimmed_ofList (s : List Char) : trimmed (String.ofList s) = String.ofList (trim s) := by
  rw [trimmed, String.toList_ofList]

/-- What has been read of the current piece belongs to the first part of what is yet to be read. -/
theorem piecesFrom_charOffsets (d : Int) (pre cur rest : List Char) :
    piecesFrom (String.ofList (pre ++ (cur ++ rest))) d (byteSize pre)
        (charOffsets (byteSize (pre ++ cur)) rest) =
      some (((segments d rest).modifyHead (cur ++ ·)).map fun p => String.ofList (trim p)) := by
  induction rest generalizing d pre cur with
  | nil =>
    rw [charOffsets, piecesFrom, List.append_nil, slice?_rest]
    dsimp only [Option.bind_eq_bind, Option.bind_some]
    rw [trimmed_ofList, segments, List.modifyHead_cons, List.append_nil]
    rfl
  | cons c rest ih =>
    rw [charOffsets, piecesFrom]
    by_cases hcomma : c = ',' ∧ d = 0
    · obtain ⟨rfl, rfl⟩ := hcomma
      have hslice := slice?_append pre cur (',' :: rest)
      -- The next piece begins behind the comma, and nothing of it has been read.
      have hrest := ih 0 (pre ++ cur ++ [',']) []
      have hsize : byteSize (pre ++ cur ++ [',']) = byteSize (pre ++ cur) + 1 := byteSize_append _ _
      have htext : pre ++ cur ++ [','] ++ ([] ++ rest) = pre ++ (cur ++ ',' :: rest) := by simp
      have hcomma : ','.utf8Size = 1 := rfl
      rw [List.append_nil, hsize, htext] at hrest
      rw [if_pos ⟨rfl, rfl⟩, byteSize_append, hslice, ← byteSize_append, hcomma]
      dsimp only [Option.bind_eq_bind, Option.bind_some]
      rw [hrest, trimmed_ofList, segments, if_pos ⟨rfl, rfl⟩, List.modifyHead_cons,
        List.append_nil, List.map_cons]
      cases segments 0 rest with
      | nil => rfl
      | cons first others => rfl
    · have hrest := ih (d + depthStep c) pre (cur ++ [c])
      have hsize : byteSize (pre ++ (cur ++ [c])) = byteSize (pre ++ cur) + c.utf8Size := by
        simp [add_assoc]
      rw [hsize, List.append_assoc, List.singleton_append] at hrest
      obtain ⟨first, others, hsegments⟩ :=
        List.exists_cons_of_ne_nil (segments_ne_nil (d + depthStep c) rest)
      rw [if_neg hcomma, hrest, segments_cons hcomma hsegments, hsegments,
        List.modifyHead_cons, List.modifyHead_cons, List.append_assoc, List.singleton_append]

theorem chop_ofList (s : List Char) :
    chop (String.ofList s) = some ((TypeExpr.chop s).map String.ofList) := by
  rw [chop, TypeExpr.chop, blank, String.toList_ofList]
  split
  · rfl
  · have hpieces := piecesFrom_charOffsets 0 [] [] s
    simp only [List.nil_append, byteSize_nil] at hpieces
    rw [hpieces, List.map_map]
    cases segments 0 s with
    | nil => rfl
    | cons first others => rfl

/-! ### Readings that are complete -/

section Complete

variable {α β γ : Type}

/-- The reading that comes to `x` by slices all of which are there. -/
def complete (x : Except ParseError α) : Reading α := ExceptT.mk (some x)

theorem complete_bind {x : Except ParseError α} {f : α → Except ParseError β}
    {g : α → Reading β} (h : ∀ a, x = .ok a → g a = complete (f a)) :
    complete x >>= g = complete (x >>= f) := by
  cases x with
  | error e => rfl
  | ok a => exact h a rfl

theorem liftM_some_bind (a : α) (g : α → Reading β) :
    (liftM (some a) : Reading α) >>= g = g a := rfl

theorem mapM_map_complete {f : β → Reading α} {g : γ → Except ParseError α} {h : γ → β}
    {l : List γ} (hf : ∀ p ∈ l, f (h p) = complete (g p)) :
    (l.map h).mapM f = complete (l.mapM g) := by
  induction l with
  | nil => rfl
  | cons p l ih =>
    obtain ⟨hp, hl⟩ := List.forall_mem_cons.1 hf
    rw [List.map_cons, List.mapM_cons, List.mapM_cons, hp]
    refine complete_bind fun a _ => ?_
    rw [ih hl]
    exact complete_bind fun as _ => rfl

end Complete

/-! ### One call of the reader -/

/-- The text is read by offsets as its characters are. -/
def ReadsAs (s : List Char) : Prop := parse (String.ofList s) = complete (parseChars s)

/-- What is made of a form of the text `u` by reading its parts. -/
def readForm (u : List Char) : Form → Except ParseError TypeExpr
  | .empty => .ok empty
  | .builtin b => .ok (builtin b)
  | .user name => .ok (user (EntityRef.unqualified (String.ofList name)))
  | .generic base params => do
    let t ← parseChars base
    if t.isAtom then
      let ts ← params.mapM parseChars
      return generic t ts
    else
      throw (.invalidGenericBase (String.ofList u) (String.ofList base))
  | .function inputs output => do
    let ts ← inputs.mapM parseChars
    let t ← parseChars output
    return function ts t
  | .tuple items => do
    let ts ← items.mapM parseChars
    return tuple ts

theorem parseChars_eq_bind (s : List Char) :
    parseChars s = Form.of (trim s) >>= readForm (trim s) := by
  rw [parseChars_eq]
  cases Form.of (trim s) with
  | error e => rfl
  | ok f => cases f <;> rfl

variable {s : List Char}

theorem parseList_ofList (h : ∀ p ∈ TypeExpr.chop s, ReadsAs p) :
    parseList (String.ofList s) = complete ((TypeExpr.chop s).mapM parseChars) := by
  rw [parseList_eq, chop_ofList, liftM_some_bind]
  exact mapM_map_complete h

theorem parseInputs_ofList (left right : List Char) :
    ∃ inputs, Form.ofSides left right = .function inputs right ∧
      ((∀ p ∈ inputs, ReadsAs p) →
        parseInputs (String.ofList (trim left)) = complete (inputs.mapM parseChars)) := by
  rw [Form.ofSides, parseInputs_eq, parenthesized?_ofList, liftM_some_bind]
  cases TypeExpr.parenthesized? (trim left) with
  | some inner => exact ⟨_, rfl, parseList_ofList⟩
  | none =>
    refine ⟨_, rfl, fun h => ?_⟩
    dsimp only [Option.map_none]
    rw [h _ List.mem_cons_self, List.mapM_cons]
    exact complete_bind fun t _ => rfl

theorem parseFunction_ofList {left right : List Char} (u : List Char)
    (h : ∀ p ∈ (Form.ofSides left right).parts, ReadsAs p) :
    parseFunction (String.ofList left) (String.ofList right) =
      complete (readForm u (Form.ofSides left right)) := by
  obtain ⟨inputs, hform, hinputs⟩ := parseInputs_ofList left right
  rw [hform] at h ⊢
  obtain ⟨hright, hparts⟩ := List.forall_mem_cons.1 h
  rw [parseFunction, trimmed_ofList, hinputs hparts, hright]
  refine complete_bind fun ts _ => ?_
  exact complete_bind fun t _ => rfl

/-- The text is put together from what stands around each of the slices of a generic type. -/
theorem slices_of_brackets {u base inner after : List Char} {c : Char} (hc : isClosing c = true)
    (hu : u = base ++ '[' :: (inner ++ c :: after)) :
    slice? (String.ofList u) 0 (byteSize base) = some (String.ofList base) ∧
      slice? (String.ofList u) (byteSize base + 1) (byteSize base + (1 + byteSize inner)) =
        some (String.ofList inner) ∧
      slice? (String.ofList u) (byteSize base + (1 + byteSize inner) + 1)
        (String.ofList u).utf8ByteSize = some (String.ofList after) := by
  have hopen : '['.utf8Size = 1 := rfl
  have hbase := slice?_front base ('[' :: (inner ++ c :: after))
  have hinner := slice?_append (base ++ ['[']) inner (c :: after)
  have hafter := slice?_rest (base ++ '[' :: (inner ++ [c])) after
  simp only [List.append_assoc, List.cons_append, List.nil_append, byteSize_append,
    byteSize_cons, byteSize_nil, hopen, utf8Size_of_isClosing hc, Nat.add_zero] at hinner hafter
  rw [← hu] at hbase hinner hafter
  exact ⟨hbase, by rwa [add_assoc] at hinner, by rwa [add_assoc, add_assoc]⟩

theorem parseGeneric_ofList {u base rest : List Char} (hu : u = base ++ '[' :: rest)
    (h : ∀ f, Form.ofBracket u base rest = .ok f → ∀ p ∈ f.parts, ReadsAs p) :
    parseGeneric (String.ofList u) (byteSize base) =
      complete (Form.ofBracket u base rest >>= readForm u) := by
  have hclose := close?_append_cons base rest (o := '[') rfl
  rw [← hu] at hclose
  rw [parseGeneric_eq, hclose, liftM_some_bind]
  rw [Form.ofBracket] at h ⊢
  cases hcut : cutClose 0 rest with
  | none => rfl
  | some sides =>
    obtain ⟨inner, after⟩ := sides
    rw [hcut] at h
    obtain ⟨c, hc, rfl⟩ := cutClose_eq_append hcut
    obtain ⟨hbase, hinner, hafter⟩ := slices_of_brackets hc hu
    dsimp only [Option.map_some] at h ⊢
    rw [hafter, liftM_some_bind, blank, String.toList_ofList]
    split
    · next hblank =>
      rw [if_pos hblank] at h
      obtain ⟨hread, hparams⟩ := List.forall_mem_cons.1 (h _ rfl)
      rw [hbase, liftM_some_bind, trimmed_ofList, hread]
      refine complete_bind fun t _ => ?_
      split
      · rw [hinner, liftM_some_bind, parseList_ofList hparams]
        exact complete_bind fun ts _ => rfl
      · rfl
    · rfl

/-- The text is put together from the two sides of an arrow. -/
theorem slices_of_arrow {u left right : List Char} (hu : u = left ++ '=' :: '>' :: right) :
    slice? (String.ofList u) 0 (byteSize left) = some (String.ofList left) ∧
      slice? (String.ofList u) (byteSize left + 2) (String.ofList u).utf8ByteSize =
        some (String.ofList right) := by
  have harrow : byteSize (left ++ ['=', '>']) = byteSize left + 2 := byteSize_append _ _
  have hleft := slice?_front left ('=' :: '>' :: right)
  have hright := slice?_rest (left ++ ['=', '>']) right
  rw [← hu] at hleft
  rw [harrow, List.append_assoc, List.cons_append, List.singleton_append, ← hu] at hright
  exact ⟨hleft, hright⟩

theorem isEmpty_ofList (s : List Char) : (String.ofList s).isEmpty = s.isEmpty := by
  rw [Bool.eq_iff_iff, String.isEmpty_iff, List.isEmpty_iff, ← String.toList_inj,
    String.toList_ofList]
  rfl

/-- A call is complete if the calls that it makes on the parts of the text are. -/
theorem readsAs_of_parts (h : ∀ f, Form.of (trim s) = .ok f → ∀ p ∈ f.parts, ReadsAs p) :
    ReadsAs s := by
  rw [ReadsAs, parse, parseTrimmed_eq, parseChars_eq_bind, trimmed_ofList, isEmpty_ofList, String.toList_ofList,
    arrow?_ofList, bracket?_ofList]
  generalize trim s = u at h ⊢
  rw [Form.of] at h ⊢
  by_cases hempty : u.isEmpty = true
  · rw [if_pos hempty, if_pos hempty]
    rfl
  rw [if_neg hempty] at h
  rw [if_neg hempty, if_neg hempty]
  cases hname : Builtin.ofName? (String.ofList u) with
  | some b => rfl
  | none =>
    rw [hname] at h
    dsimp only at h ⊢
    by_cases hnested : isNested u = true
    · rw [if_pos hnested] at h
      rw [if_pos hnested, if_pos hnested]
      cases harrow : cutArrow 0 u with
      | some sides =>
        obtain ⟨left, right⟩ := sides
        obtain ⟨hleft, hright⟩ := slices_of_arrow (cutArrow_eq_append harrow)
        rw [harrow] at h
        dsimp only [Option.map_some]
        rw [hleft, liftM_some_bind, hright, liftM_some_bind]
        exact parseFunction_ofList u (h _ rfl)
      | none =>
        rw [harrow] at h
        dsimp only [Option.map_none] at h ⊢
        cases hopen : cutOpen 0 u with
        | some sides =>
          obtain ⟨base, rest⟩ := sides
          rw [hopen] at h
          exact parseGeneric_ofList (cutOpen_eq_append hopen) h
        | none =>
          rw [hopen] at h
          dsimp only [Option.map_none] at h ⊢
          rw [parenthesized?_ofList, liftM_some_bind]
          cases hinner : TypeExpr.parenthesized? u with
          | some inner =>
            rw [hinner] at h
            dsimp only [Option.map_some] at h ⊢
            rw [parseList_ofList (h _ rfl)]
            exact complete_bind fun ts _ => rfl
          | none => rfl
    · rw [if_neg hnested, if_neg hnested]
      rfl

theorem readsAs (s : List Char) : ReadsAs s := by
  induction hn : s.length using Nat.strong_induction_on generalizing s with
  | _ n ih =>
    refine readsAs_of_parts fun f hf p hp => ih p.length ?_ p rfl
    rw [← hn]
    exact Nat.lt_of_lt_of_le (Form.length_lt_of_mem_parts hf hp) (length_trim_le s)

/-! ### Offsets and characters -/

/-- On the text, byte offsets tell the places that a scan of its characters tells, and whatever is
sliced there lies within the text and between characters, whether or not its brackets pair up. -/
structure Agrees (text : String) : Prop where
  /-- The scan over octets stops where the scan over characters does. -/
  arrow?_eq : arrow? text = arrowOffset? text.toList
  /-- It finds the least offset of an arrow before which as many brackets open as close. -/
  arrow?_iff : ∀ i, arrow? text = some i ↔ IsLeast {j | HasArrowAt text j} i
  /-- The scan for a `[` outside parentheses finds the one at which the characters are cut. -/
  bracket?_eq : bracket? text = (cutOpen 0 text.toList).map fun p => byteSize p.1
  /-- From any place, the scan for a closing bracket takes a slice that is there. -/
  isSome_close? : ∀ start, String.Pos.Raw.IsValid text ⟨start⟩ → (close? text start).isSome
  /-- From an opening bracket, it finds the closing one at which the characters are cut. -/
  close?_eq : ∀ before o rest, text.toList = before ++ o :: rest → isOpening o = true →
    close? text (byteSize before) =
      some ((cutClose 0 rest).map fun p => byteSize before + (1 + byteSize p.1))
  /-- The slice between parentheses is there. -/
  parenthesized?_eq :
    parenthesized? text = some ((TypeExpr.parenthesized? text.toList).map String.ofList)
  /-- The slices between commas are there. -/
  chop_eq : chop text = some ((TypeExpr.chop text.toList).map String.ofList)
  /-- So are all those on the way to a type or an error, down to the innermost call. -/
  run_parse : (parse text).run = some (TypeExpr.parse text)
  /-- The same holds where the text is taken for the left side of a function. -/
  isSome_parseFunction : ∀ right, (parseFunction text right).run.isSome
  /-- The same holds where the text is taken for a generic type, at any `[` of it. -/
  isSome_parseGeneric : ∀ base rest, text = base ++ "[" ++ rest →
    (parseGeneric text base.utf8ByteSize).run.isSome

/-- On every text, well nested or not, reading by byte offsets is reading by characters, and no
slice is missing on the way. -/
theorem agrees (text : String) : Agrees text := by
  obtain ⟨s, rfl⟩ := text.exists_eq_ofList
  constructor
  case arrow?_eq => rw [arrow?_ofList, String.toList_ofList]; rfl
  case arrow?_iff => exact fun i => arrow?_eq_some_iff
  case bracket?_eq => rw [bracket?_ofList, String.toList_ofList]
  case isSome_close? => exact fun start => isSome_close?
  case close?_eq =>
    intro before o rest hs ho
    rw [String.toList_ofList] at hs
    rw [hs, close?_append_cons before rest ho]
  case parenthesized?_eq => rw [parenthesized?_ofList, String.toList_ofList]
  case chop_eq => rw [chop_ofList, String.toList_ofList]
  case run_parse =>
    rw [readsAs s, TypeExpr.parse, String.toList_ofList]
    rfl
  case isSome_parseFunction =>
    intro right
    obtain ⟨right, rfl⟩ := right.exists_eq_ofList
    rw [parseFunction_ofList s fun p _ => readsAs p]
    rfl
  case isSome_parseGeneric =>
    intro base rest hs
    have hlist := congrArg String.toList hs
    have hu : s = base.toList ++ '[' :: rest.toList := by simpa using hlist
    rw [← byteSize_toList, parseGeneric_ofList hu fun f _ p _ => readsAs p]
    rfl

/-- A function whose only input is a generic type with a function in brackets; two of its characters
are not of ASCII. -/
def sizesText : String := "Maß[A => ü] => B"

theorem agrees_sizesText :
    (arrow? sizesText = some 14 ∧ IsLeast {i | HasArrowAt sizesText i} 14) ∧
      (String.Pos.Raw.IsValid sizesText ⟨4⟩ ∧ (close? sizesText 4).isSome) ∧
      sizesText = "Maß" ++ "[" ++ "A => ü] => B" ∧ (parseGeneric sizesText 4).run.isSome := by
  have harrow : arrow? sizesText = some 14 := by decide +kernel
  have hvalid : String.Pos.Raw.IsValid sizesText ⟨4⟩ := by decide +kernel
  have htext : sizesText = "Maß" ++ "[" ++ "A => ü] => B" := by decide
  refine ⟨⟨harrow, ?_⟩, ⟨hvalid, ?_⟩, htext, ?_⟩
  · exact ((agrees sizesText).arrow?_iff 14).1 harrow
  · exact (agrees sizesText).isSome_close? 4 hvalid
  · exact (agrees sizesText).isSome_parseGeneric "Maß" "A => ü] => B" htext

end ClassDiagram.TypeExpr.Offset
