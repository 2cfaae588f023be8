import ClassDiagram.Markup.Event
import ClassDiagram.Text.Blank

/-!
# Scanning documents

`scan` finds the events of a document in its bytes.  Between events spaces are skipped; whatever
then stands before the next `<` is a run of text, without the spaces at its end.  An end tag has to
repeat the full name of the innermost open element, so the scan carries the names of the open
elements along.

Finding events is the part of an XML library.  The scan stands in the place of one: it follows the
documented behaviour of a library that checks the names of end tags, trims runs of text and leaves
declarations unread.  What is proved of drawings is about lists of events, whatever has found them.
-/

namespace ClassDiagram.Markup

open Text

/-! ### Finding the end of a tag -/

/-- The quote that is open after the byte `b`, when `quote` is the one open before it. -/
def quoteAfter (quote : Option UInt8) (b : UInt8) : Option UInt8 :=
  match quote with
  | none => if isQuoteByte b then some b else none
  | some q => if b = q then none else some q

/-- What stands before and after the first `>` outside quotes.  `quote` is the quote that is open at
the beginning. -/
def cutTag (quote : Option UInt8) : List UInt8 → Option (List UInt8 × List UInt8)
  | [] => none
  | b :: s =>
    if quote = none ∧ b = 0x3E then some ([], s)
    else (cutTag (quoteAfter quote b) s).map fun (content, rest) => (b :: content, rest)

/-- What stands before and after the `>` that closes the outermost of `depth + 1` open angle
brackets. -/
def cutAngles (depth : Nat) : List UInt8 → Option (List UInt8 × List UInt8)
  | [] => none
  | b :: s =>
    if b = 0x3E ∧ depth = 0 then some ([], s)
    else
      let depth := if b = 0x3C then depth + 1 else if b = 0x3E then depth - 1 else depth
      (cutAngles depth s).map fun (content, rest) => (b :: content, rest)

/-! ### Single events -/

/-- An event, the full names of the open elements after it, and the bytes after it. -/
structure Found where
  /-- The event. -/
  event : Event
  /-- The names of the elements open after the event, the innermost first. -/
  names : List (List UInt8)
  /-- The bytes after the event. -/
  rest : List UInt8

/-- The bytes of an ASCII text. -/
def ascii (s : String) : List UInt8 :=
  s.toList.map fun c => UInt8.ofNat c.toNat

/-- The lower case form of an ASCII letter, any other byte itself. -/
def lowerByte (b : UInt8) : UInt8 :=
  if 0x41 ≤ b && b ≤ 0x5A then b + 0x20 else b

/-- What follows a word at the head of `s`, `none` if it is not there. -/
def after? (word : String) (s : List UInt8) : Option (List UInt8) :=
  (ascii word).isPrefixOf? s

/-- The literal text, the comment or the document type that begins with the bytes `<!` before
`s`. -/
def declaration (names : List (List UInt8)) (s : List UInt8) : Option Found :=
  match after? "[CDATA[" s with
  | some t =>
    (cutAt (ascii "]]>") t).map fun (content, rest) =>
      ⟨.literal (String.ofList (Utf8.decodeLenient content)), names, rest⟩
  | none =>
    match after? "--" s with
    | some t => (cutAt (ascii "-->") t).map fun (_, rest) => ⟨.skipped, names, rest⟩
    | none =>
      match (ascii "doctype").isPrefixOf? (s.map lowerByte), cutAngles 0 s with
      | some _, some (content, rest) =>
        if (content.drop 7).all isSpaceByte then none else some ⟨.skipped, names, rest⟩
      | _, _ => none

/-- The processing instruction that begins with the bytes `<?` before `s`. -/
def instruction (names : List (List UInt8)) (s : List UInt8) : Option Found :=
  match after? ">" s with
  | some _ => none
  | none => (cutAt (ascii "?>") s).map fun (_, rest) => ⟨.skipped, names, rest⟩

/-- The name in an end tag: its content without the spaces at its end. -/
def closingName (content : List UInt8) : List UInt8 :=
  if content.all isSpaceByte then content else dropEndWhile isSpaceByte content

/-- The end tag that begins with the bytes `</` before `s`. -/
def closing (names : List (List UInt8)) (s : List UInt8) : Option Found :=
  match cutTag none s, names with
  | some (content, rest), name :: names =>
    if closingName content = name then some ⟨.close, names, rest⟩ else none
  | _, _ => none

/-- The start tag that begins with the byte `<` before `s`.  A slash at its end says that the
element is empty. -/
def opening (names : List (List UInt8)) (s : List UInt8) : Except MarkupError Found :=
  match cutTag none s with
  | none => .error .malformed
  | some (content, rest) =>
    if content.getLast? = some 0x2F then
      (Tag.read content.dropLast).map fun tag => ⟨.empty tag, names, rest⟩
    else
      (Tag.read content).map fun tag => ⟨.start tag, Tag.fullName content :: names, rest⟩

/-- What was found; the markup is malformed if that is nothing. -/
def orMalformed : Option Found → Except MarkupError Found
  | some f => .ok f
  | none => .error .malformed

/-- The markup that begins with the byte `<` before `s`. -/
def markup (names : List (List UInt8)) (s : List UInt8) : Except MarkupError Found :=
  match s with
  | [] => .error .malformed
  | b :: t =>
    if b = 0x21 then orMalformed (declaration names t)
    else if b = 0x3F then orMalformed (instruction names t)
    else if b = 0x2F then orMalformed (closing names t)
    else opening names s

/-- The run of text at the head of `s`, up to the next `<`. -/
def textRun (names : List (List UInt8)) (s : List UInt8) : Except MarkupError Found :=
  let inRun := fun (b : UInt8) => b ≠ 0x3C
  match textOfBytes? (dropEndWhile isSpaceByte (s.takeWhile inRun)) with
  | some content => .ok ⟨.text content, names, s.dropWhile inRun⟩
  | none => .error .text

/-! ### What is left to scan -/

theorem length_cutTag {quote : Option UInt8} {s content rest : List UInt8}
    (h : cutTag quote s = some (content, rest)) : content.length + 1 + rest.length = s.length := by
  induction s generalizing quote content with
  | nil => simp [cutTag] at h
  | cons b s ih =>
    rw [cutTag] at h
    split at h
    · obtain ⟨rfl, rfl⟩ := by simpa using h
      simp
      omega
    · simp only [Option.map_eq_some_iff, Prod.mk.injEq, Prod.exists] at h
      obtain ⟨c, r, hc, rfl, rfl⟩ := h
      have := ih hc
      simp only [List.length_cons]
      omega

theorem length_cutAngles {depth : Nat} {s content rest : List UInt8}
    (h : cutAngles depth s = some (content, rest)) :
    content.length + 1 + rest.length = s.length := by
  induction s generalizing depth content with
  | nil => simp [cutAngles] at h
  | cons b s ih =>
    rw [cutAngles] at h
    split at h
    · obtain ⟨rfl, rfl⟩ := by simpa using h
      simp
      omega
    · simp only [Option.map_eq_some_iff, Prod.mk.injEq, Prod.exists] at h
      obtain ⟨c, r, hc, rfl, rfl⟩ := h
      have := ih hc
      simp only [List.length_cons]
      omega

theorem length_after? {word : String} {s t : List UInt8} (h : after? word s = some t) :
    t.length ≤ s.length := by
  have hlength := length_of_isPrefixOf? h
  omega

theorem length_declaration {names : List (List UInt8)} {s : List UInt8} {f : Found}
    (h : declaration names s = some f) : f.rest.length ≤ s.length := by
  unfold declaration at h
  split at h
  · next t ht =>
    simp only [Option.map_eq_some_iff, Prod.exists] at h
    obtain ⟨c, r, hc, rfl⟩ := h
    have h1 := length_after? ht
    have h2 := length_after_cutAt hc
    dsimp only
    omega
  · split at h
    · next t ht =>
      simp only [Option.map_eq_some_iff, Prod.exists] at h
      obtain ⟨c, r, hc, rfl⟩ := h
      have h1 := length_after? ht
      have h2 := length_after_cutAt hc
      dsimp only
      omega
    · split at h
      · next content rest _ hc =>
        have h1 := length_cutAngles hc
        split at h
        · simp at h
        · obtain rfl := by simpa using h
          dsimp only
          omega
      · simp at h

theorem length_instruction {names : List (List UInt8)} {s : List UInt8} {f : Found}
    (h : instruction names s = some f) : f.rest.length ≤ s.length := by
  unfold instruction at h
  split at h
  · simp at h
  · simp only [Option.map_eq_some_iff, Prod.exists] at h
    obtain ⟨c, r, hc, rfl⟩ := h
    have h2 := length_after_cutAt hc
    dsimp only
    omega

theorem length_closing {names : List (List UInt8)} {s : List UInt8} {f : Found}
    (h : closing names s = some f) : f.rest.length ≤ s.length := by
  unfold closing at h
  split at h
  · next content rest name names hc =>
    have h1 := length_cutTag hc
    split at h
    · obtain rfl := by simpa using h
      dsimp only
      omega
    · simp at h
  · simp at h

theorem length_opening {names : List (List UInt8)} {s : List UInt8} {f : Found}
    (h : opening names s = .ok f) : f.rest.length ≤ s.length := by
  unfold opening at h
  split at h
  · simp at h
  · next content rest hc =>
    have h1 := length_cutTag hc
    split at h
    · cases ht : Tag.read content.dropLast with
      | error e => simp [ht, Except.map] at h
      | ok tag =>
        obtain rfl := by simpa [ht, Except.map] using h
        dsimp only
        omega
    · cases ht : Tag.read content with
      | error e => simp [ht, Except.map] at h
      | ok tag =>
        obtain rfl := by simpa [ht, Except.map] using h
        dsimp only
        omega

theorem eq_some_of_orMalformed {found : Option Found} {f : Found}
    (h : orMalformed found = .ok f) : found = some f := by
  cases found with
  | none => simp [orMalformed] at h
  | some g => simpa [orMalformed] using h

/-- Markup leaves no more to scan than what followed its first byte. -/
theorem length_markup {names : List (List UInt8)} {s : List UInt8} {f : Found}
    (h : markup names s = .ok f) : f.rest.length ≤ s.length := by
  unfold markup at h
  split at h
  · simp at h
  · next b t =>
    simp only [List.length_cons]
    split at h
    · exact Nat.le_succ_of_le (length_declaration (eq_some_of_orMalformed h))
    · split at h
      · exact Nat.le_succ_of_le (length_instruction (eq_some_of_orMalformed h))
      · split at h
        · exact Nat.le_succ_of_le (length_closing (eq_some_of_orMalformed h))
        · simpa using length_opening h

/-- A run of text that does not begin with a `<` takes at least one byte. -/
theorem length_textRun {names : List (List UInt8)} {b : UInt8} {s : List UInt8} {f : Found}
    (hb : b ≠ 0x3C) (h : textRun names (b :: s) = .ok f) : f.rest.length ≤ s.length := by
  unfold textRun at h
  dsimp only at h
  split at h
  · obtain rfl := by simpa using h
    rw [List.dropWhile_cons_of_pos (by simp [hb])]
    exact (List.dropWhile_sublist _).length_le
  · simp at h

/-! ### All events -/

/-- The event that begins with the byte `b` before `s`. -/
def next (names : List (List UInt8)) (b : UInt8) (s : List UInt8) : Except MarkupError Found :=
  if b = 0x3C then markup names s else textRun names (b :: s)

/-- Whatever is found, there is less to scan after it than before. -/
theorem length_next {names : List (List UInt8)} {b : UInt8} {s : List UInt8} {f : Found}
    (h : next names b s = .ok f) : f.rest.length ≤ s.length := by
  unfold next at h
  split at h
  · exact length_markup h
  · next hb => exact length_textRun hb h

/-- The events in `s`, when the elements with the given names are open at its beginning. -/
def scan (names : List (List UInt8)) (s : List UInt8) : Except MarkupError (List Event) :=
  match _hs : s.dropWhile isSpaceByte with
  | [] => .ok []
  | b :: t =>
    match _hf : next names b t with
    | .error e => .error e
    | .ok f => (scan f.names f.rest).map (f.event :: ·)
termination_by s.length
decreasing_by
  have h1 := length_next _hf
  have h2 := congrArg List.length _hs
  have h3 := (List.dropWhile_sublist (l := s) isSpaceByte).length_le
  simp only [List.length_cons] at h2
  omega

end ClassDiagram.Markup
