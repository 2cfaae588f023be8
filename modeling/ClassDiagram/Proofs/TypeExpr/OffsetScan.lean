import ClassDiagram.Proofs.TypeExpr.Commas
import ClassDiagram.TypeExpr.Offset
import Mathlib.Order.Bounds.Defs

/-!
# Scans that give offsets

Every scan that gives an offset stops where the scan that cuts a list of characters does, and the
offset is the number of octets of what is cut off in front (`arrowFrom_octets`,
`bracketFrom_charOffsets`, `closeFrom_charOffsets`).  For the scan over octets this is so because
no octet of a character outside ASCII can be taken for one inside (`octets_cases`): it passes over
such a character as over a single one that does not count (`arrowFrom_append_of_forall`).

Of two beginnings of one text the one with fewer characters has fewer octets, so that the first
arrow at depth zero is also the one with the least offset (`arrow?_eq_some_iff`).
-/

namespace ClassDiagram.TypeExpr.Offset

open ClassDiagram.Text

/-! ### Octets of characters -/

theorem octets_ofList (s : List Char) :
    octets (String.ofList s) = s.flatMap String.utf8EncodeChar := by
  rw [octets, String.toByteArray_ofList, List.utf8Encode, List.toList_data_toByteArray]

theorem octets_cons (c : Char) (s : List Char) :
    octets (String.ofList (c :: s)) = String.utf8EncodeChar c ++ octets (String.ofList s) := by
  rw [octets_ofList, octets_ofList, List.flatMap_cons]

/-- A character of ASCII is one octet, and the octets of any other are beyond ASCII. -/
theorem octets_cases (c : Char) :
    (c.toNat < 128 ∧ String.utf8EncodeChar c = [c.toUInt8]) ∨
      (128 ≤ c.toNat ∧ ∀ b ∈ String.utf8EncodeChar c, 128 ≤ b.toNat) := by
  have hval : c.val.toNat = c.toNat := rfl
  fun_cases String.utf8EncodeChar c with
  | case1 v h => exact .inl ⟨by omega, rfl⟩
  | case2 v h _ | case3 v h _ _ | case4 v h _ _ =>
    refine .inr ⟨by omega, ?_⟩
    simp only [List.forall_mem_cons, UInt8.toNat_ofNat', List.not_mem_nil, IsEmpty.forall_iff,
      implies_true, and_true]
    omega

theorem toNat_toUInt8 (c : Char) : c.toUInt8.toNat = c.toNat % 256 :=
  UInt32.toNat_toUInt8 c.val

/-- No two characters of ASCII have the same octet. -/
theorem toUInt8_eq_iff {c x : Char} (hc : c.toNat < 128) (hx : x.toNat < 128) :
    c.toUInt8 = x.toUInt8 ↔ c = x := by
  refine ⟨fun h => Char.toNat_inj.1 ?_, congrArg _⟩
  have hoctet := congrArg UInt8.toNat h
  rw [toNat_toUInt8, toNat_toUInt8] at hoctet
  omega

/-- An octet beyond ASCII is not that of a character of ASCII. -/
theorem ne_toUInt8 {b : UInt8} {x : Char} (hb : 128 ≤ b.toNat) (hx : x.toNat < 128) :
    b ≠ x.toUInt8 := by
  rintro rfl
  rw [toNat_toUInt8] at hb
  omega

/-- The first octet of a text is that of a character of ASCII just when the text begins with that
character. -/
theorem head?_octets_eq_some_iff {s : List Char} {x : Char} (hx : x.toNat < 128) :
    (octets (String.ofList s)).head? = some x.toUInt8 ↔ s.head? = some x := by
  cases s with
  | nil => simp only [octets_ofList, List.flatMap_nil, List.head?_nil, reduceCtorEq]
  | cons c s =>
    rw [octets_cons, List.head?_cons, Option.some.injEq]
    rcases octets_cases c with ⟨hc, hoctet⟩ | ⟨hc, hoctets⟩
    · rw [hoctet, List.singleton_append, List.head?_cons, Option.some.injEq,
        toUInt8_eq_iff hc hx]
    · obtain ⟨b, bs, hbs⟩ := List.exists_cons_of_ne_nil (String.utf8EncodeChar_ne_nil (c := c))
      rw [hbs] at hoctets ⊢
      rw [List.cons_append, List.head?_cons, Option.some.injEq]
      refine iff_of_false (ne_toUInt8 (hoctets b List.mem_cons_self) hx) ?_
      rintro rfl
      omega

/-! ### The scan over octets -/

theorem octetStep_toUInt8 {c : Char} (hc : c.toNat < 128) : octetStep c.toUInt8 = depthStep c := by
  have hsquare := toUInt8_eq_iff hc (by decide : '['.toNat < 128)
  have hround := toUInt8_eq_iff hc (by decide : '('.toNat < 128)
  have hsquare' := toUInt8_eq_iff hc (by decide : ']'.toNat < 128)
  have hround' := toUInt8_eq_iff hc (by decide : ')'.toNat < 128)
  simp only [octetStep, depthStep, isOpening, isClosing, Bool.or_eq_true, decide_eq_true_eq,
    hsquare, hround, hsquare', hround']

theorem toNat_lt_of_mem_brackets {x : Char} (hx : x ∈ "[]()".toList) : x.toNat < 128 := by
  have hlist : "[]()".toList = ['[', ']', '(', ')'] := rfl
  rw [hlist] at hx
  simp only [List.mem_cons, List.not_mem_nil, or_false] at hx
  rcases hx with rfl | rfl | rfl | rfl <;> decide

theorem octetStep_of_le {b : UInt8} (hb : 128 ≤ b.toNat) : octetStep b = 0 := by
  have hne : ∀ x ∈ "[]()".toList, b ≠ x.toUInt8 := fun x hx =>
    ne_toUInt8 hb (toNat_lt_of_mem_brackets hx)
  rw [octetStep, if_neg (not_or.2 ⟨hne _ (by decide), hne _ (by decide)⟩),
    if_neg (not_or.2 ⟨hne _ (by decide), hne _ (by decide)⟩)]

theorem isPlain_of_le {c : Char} (hc : 128 ≤ c.toNat) : IsPlain c := by
  rw [isPlain_iff]
  rintro x hx rfl
  have hascii := toNat_lt_of_mem_brackets hx
  omega

theorem arrowFrom_append_of_forall {bs : List UInt8} (h : ∀ b ∈ bs, 128 ≤ b.toNat) (d : Int)
    (i : Nat) (rest : List UInt8) :
    arrowFrom d i (bs ++ rest) = arrowFrom d (i + bs.length) rest := by
  induction bs generalizing i with
  | nil => rfl
  | cons b bs ih =>
    obtain ⟨hb, hbs⟩ := List.forall_mem_cons.1 h
    have hne : b ≠ '='.toUInt8 := ne_toUInt8 hb (by decide)
    rw [List.cons_append, arrowFrom, if_neg fun harrow => hne harrow.1, octetStep_of_le hb,
      add_zero, ih hbs, List.length_cons]
    congr 1
    omega

/-- A character in front of what has been cut off moves the offset by its octets. -/
theorem map_offset_cons (cut : Option (List Char × List Char)) (c : Char) (i : Nat) :
    (cut.map fun (before, after) => (c :: before, after)).map (fun p => i + byteSize p.1) =
      cut.map fun p => i + c.utf8Size + byteSize p.1 := by
  rw [Option.map_map]
  congr 1
  funext p
  simp only [Function.comp_apply, byteSize_cons]
  omega

/-- The scan over octets stops at the octet before which stand those of what the scan over
characters cuts off. -/
theorem arrowFrom_octets (d : Int) (i : Nat) (s : List Char) :
    arrowFrom d i (octets (String.ofList s)) =
      (cutArrow d s).map fun p => i + byteSize p.1 := by
  induction s generalizing d i with
  | nil => rw [octets_ofList]; rfl
  | cons c s ih =>
    have hsize := String.length_utf8EncodeChar c
    rw [octets_cons, cutArrow]
    rcases octets_cases c with ⟨hc, hoctet⟩ | ⟨hc, hoctets⟩
    · -- One octet is read for one character.
      have harrow : (c.toUInt8 = '='.toUInt8 ∧ d = 0 ∧
          (octets (String.ofList s)).head? = some '>'.toUInt8) ↔
            (c = '=' ∧ d = 0 ∧ s.head? = some '>') := by
        rw [toUInt8_eq_iff hc (by decide), head?_octets_eq_some_iff (by decide)]
      rw [hoctet, List.length_singleton] at hsize
      rw [hoctet, List.singleton_append, arrowFrom, if_congr harrow (by rfl) (by rfl)]
      split
      · rfl
      · rw [octetStep_toUInt8 hc, ih, map_offset_cons, ← hsize]
    · -- All octets of the character are passed over, and it does not count itself.
      have hne : c ≠ '=' := by
        rintro rfl
        exact absurd hc (by decide)
      have hstep : depthStep c = 0 := Counter.brackets.step_of_isPlain (isPlain_of_le hc)
      rw [arrowFrom_append_of_forall hoctets, if_neg fun harrow => hne harrow.1, ih,
        map_offset_cons, hstep, add_zero, hsize]

/-! ### The scans over characters and their offsets -/

theorem bracketFrom_charOffsets (parens : Int) (i : Nat) (s : List Char) :
    bracketFrom parens (charOffsets i s) =
      (cutOpen parens s).map fun p => i + byteSize p.1 := by
  induction s generalizing parens i with
  | nil => rfl
  | cons c s ih =>
    rw [charOffsets, bracketFrom, cutOpen]
    split
    · rfl
    · rw [ih, map_offset_cons]

/-- The one scan counts the bracket whose partner is looked for, and the other one those opened
behind it. -/
theorem closeFrom_charOffsets (d i : Nat) (s : List Char) :
    closeFrom (d + 1) (charOffsets i s) = (cutClose d s).map fun p => i + byteSize p.1 := by
  induction s generalizing d i with
  | nil => rfl
  | cons c s ih =>
    have hstep : isClosing c = true → depthStep c = -1 := by
      intro hclosing
      have hopening : isOpening c = false := closing?_eq_none_iff.1 (closing?_of_isClosing hclosing)
      simp [depthStep, hopening, hclosing]
    have hstop : (isClosing c = true ∧ (d + 1 : Int) + depthStep c = 0) ↔
        (isClosing c = true ∧ d = 0) := by
      refine and_congr_right fun hclosing => ?_
      rw [hstep hclosing]
      omega
    rw [charOffsets, closeFrom, cutClose, if_congr hstop (by rfl) (by rfl)]
    split
    · rfl
    · next hgo =>
      -- A bracket that closes another one than the first lowers a depth that is not zero.
      have hdepth : (d + 1 : Int) + depthStep c =
          (if isOpening c then d + 1 else if isClosing c then d - 1 else d : Nat) + 1 := by
        rw [depthStep]
        split
        · omega
        · split
          · next hclosing =>
            have hd : d ≠ 0 := fun h => hgo ⟨hclosing, h⟩
            omega
          · omega
      dsimp only
      rw [hdepth, ih, map_offset_cons]

/-! ### What the scans find -/

theorem arrow?_ofList (s : List Char) :
    arrow? (String.ofList s) = (cutArrow 0 s).map fun p => byteSize p.1 := by
  rw [arrow?, arrowFrom_octets]
  simp only [Nat.zero_add]

theorem bracket?_ofList (s : List Char) :
    bracket? (String.ofList s) = (cutOpen 0 s).map fun p => byteSize p.1 := by
  rw [bracket?, String.toList_ofList, bracketFrom_charOffsets]
  simp only [Nat.zero_add]

/-- An arrow stands at the offset `i`, with as many opening as closing brackets before it. -/
def HasArrowAt (s : String) (i : Nat) : Prop :=
  ∃ before after : String, s = before ++ "=>" ++ after ∧ before.utf8ByteSize = i ∧
    before.toList.countP isOpening = before.toList.countP isClosing

theorem hasArrowAt_ofList_iff {s : List Char} {i : Nat} :
    HasArrowAt (String.ofList s) i ↔
      ∃ l r, s = l ++ (['=', '>'] ++ r) ∧ byteSize l = i ∧ Counter.brackets.level l = 0 := by
  have harrow : "=>" = String.ofList ['=', '>'] := rfl
  constructor
  · rintro ⟨before, after, hs, hsize, hcount⟩
    refine ⟨before.toList, after.toList, ?_, ?_, ?_⟩
    · have hlist := congrArg String.toList hs
      simpa [harrow] using hlist
    · rw [byteSize_toList, hsize]
    · rw [Counter.brackets_level, depth_eq_zero_iff, hcount]
  · rintro ⟨l, r, rfl, hsize, hlevel⟩
    refine ⟨String.ofList l, String.ofList r, ?_, ?_, ?_⟩
    · rw [harrow, ← String.ofList_append, ← String.ofList_append, List.append_assoc]
    · rw [utf8ByteSize_ofList, hsize]
    · rw [String.toList_ofList, ← depth_eq_zero_iff, ← Counter.brackets_level, hlevel]

/-- Of two beginnings of one text, the one with no more characters has no more octets. -/
theorem byteSize_le_of_length_le {a b a' b' : List Char} (h : a ++ b = a' ++ b')
    (hlength : a.length ≤ a'.length) : byteSize a ≤ byteSize a' := by
  obtain ⟨x, rfl⟩ := List.prefix_of_prefix_length_le ⟨b, h⟩ ⟨b', rfl⟩ hlength
  rw [byteSize_append]
  omega

/-- Where a text is cut at its first arrow at depth zero, the least offset of such an arrow is. -/
theorem isLeast_of_cutsAt {s l r : List Char} (h : Counter.brackets.CutsAt 0 ['=', '>'] s l r) :
    IsLeast {i | HasArrowAt (String.ofList s) i} (byteSize l) := by
  have hlevel : Counter.brackets.level l = 0 := by simpa using h.level_eq
  refine ⟨hasArrowAt_ofList_iff.2 ⟨l, r, h.eq_append, rfl, hlevel⟩, fun i hi => ?_⟩
  obtain ⟨l', r', hs, rfl, hlevel'⟩ := hasArrowAt_ofList_iff.1 hi
  have hle : l.length ≤ l'.length := h.least l' r' hs (by rw [hlevel']; rfl)
  exact byteSize_le_of_length_le (h.eq_append.symm.trans hs) hle

/-- The scan over octets finds the least offset of an arrow at depth zero. -/
theorem arrow?_eq_some_iff {s : String} {i : Nat} :
    arrow? s = some i ↔ IsLeast {j | HasArrowAt s j} i := by
  obtain ⟨s, rfl⟩ := s.exists_eq_ofList
  rw [arrow?_ofList, Option.map_eq_some_iff]
  simp only [Prod.exists, cutArrow_eq_some_iff]
  constructor
  · rintro ⟨l, r, hcut, rfl⟩
    exact isLeast_of_cutsAt hcut
  · intro h
    obtain ⟨l, r, hs, -, hlevel⟩ := hasArrowAt_ofList_iff.1 h.1
    obtain ⟨l', r', hcut⟩ := (Counter.exists_cutsAt_iff (C := Counter.brackets) (d := 0)
      (List.cons_ne_nil '=' ['>'])).2 ⟨l, r, hs, by rw [hlevel]; rfl⟩
    exact ⟨l', r', hcut, (isLeast_of_cutsAt hcut).unique h⟩

end ClassDiagram.TypeExpr.Offset
