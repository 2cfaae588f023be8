import ClassDiagram.Proofs.Markup.Elements
import ClassDiagram.Proofs.Markup.Tag

/-!
# Spellings of a tree

A tree is spelled by many sequences of events: its text may be cut into runs anywhere between its
children, an element without content may have one tag or two, and comments may stand anywhere
(`Spelling`).  All of them put together the same tree, since the events that spell some trees and a
text add just these to the innermost open element, whatever has been built before them
(`Spelling.foldl_step`).  There is one for each tree (`exists_spelling`).

Events that put no tree together have no element, or one that is started and never ended.  The
second is told by counting: an element stays open if the events after its start never end one more
element than they start (`Assembly.opened_ne_nil_iff`).
-/

namespace ClassDiagram

open Markup

/-- Each fault has a wording of its own. -/
theorem MarkupError.message_injective : Function.Injective MarkupError.message := by
  intro e e' h
  cases e <;> cases e' <;> first | rfl | exact absurd h (by decide)

namespace Markup

/-! ### Spelling -/

/-- The events spell the trees `ns`, one after the other, with the text `text` between them. -/
inductive Spelling : List Node → String → List Event → Prop
  | nil : Spelling [] "" []
  | text {ns : List Node} {text : String} {events : List Event} (content : String)
      (h : Spelling ns text events) : Spelling ns (content ++ text) (.text content :: events)
  | literal {ns : List Node} {text : String} {events : List Event} (content : String)
      (h : Spelling ns text events) : Spelling ns (content ++ text) (.literal content :: events)
  | skipped {ns : List Node} {text : String} {events : List Event}
      (h : Spelling ns text events) : Spelling ns text (.skipped :: events)
  | empty {ns : List Node} {text : String} {events : List Event} (tag : Tag)
      (h : Spelling ns text events) : Spelling (tag.element :: ns) text (.empty tag :: events)
  | element {ns children : List Node} {text content : String} {events inner : List Event}
      (tag : Tag) (hinner : Spelling children content inner) (h : Spelling ns text events) :
      Spelling (⟨tag.kind, tag.attributes, content, children⟩ :: ns) text
        (.start tag :: (inner ++ .close :: events))

/-- All trees can be spelled. -/
theorem exists_spelling (ns : List Node) : ∃ events, Spelling ns "" events := by
  match ns with
  | [] => exact ⟨[], .nil⟩
  | ⟨kind, attributes, text, children⟩ :: ns =>
    obtain ⟨inner, hinner⟩ := exists_spelling children
    obtain ⟨events, hevents⟩ := exists_spelling ns
    have htext := hinner.text text
    rw [String.append_empty] at htext
    exact ⟨_, htext.element ⟨kind, attributes⟩ hevents⟩

namespace Assembly

/-- What has been built, with trees and text added to the innermost open element.  With none open
the last one of the trees becomes the root, and the text is dropped. -/
def absorb (a : Assembly) (ns : List Node) (text : String) : Assembly :=
  match a.opened with
  | n :: others =>
    { a with opened := { n with text := n.text ++ text, children := n.children ++ ns } :: others }
  | [] => { a with root := ns.getLast?.or a.root }

variable {a : Assembly}

theorem absorb_nil (a : Assembly) : a.absorb [] "" = a := by
  obtain ⟨_ | ⟨⟨_, _, _, _⟩, others⟩, root⟩ := a <;> simp [absorb]

theorem absorb_absorb (a : Assembly) (ns ms : List Node) (s t : String) :
    (a.absorb ns s).absorb ms t = a.absorb (ns ++ ms) (s ++ t) := by
  obtain ⟨_ | ⟨n, others⟩, root⟩ := a
  · simp [absorb, List.getLast?_append, Option.or_assoc]
  · simp [absorb, String.append_assoc]

theorem attach_eq_absorb (a : Assembly) (n : Node) : a.attach n = a.absorb [n] "" := by
  obtain ⟨_ | ⟨parent, others⟩, root⟩ := a <;> simp [attach, absorb, Node.addChild]

theorem addText_eq_absorb (a : Assembly) (content : String) :
    a.addText content = a.absorb [] content := by
  obtain ⟨_ | ⟨n, others⟩, root⟩ := a <;> simp [addText, absorb, Node.addText]

end Assembly

/-- Events that spell trees and a text add these to the innermost open element. -/
theorem Spelling.foldl_step {ns : List Node} {text : String} {events : List Event}
    (h : Spelling ns text events) (a : Assembly) :
    events.foldl Assembly.step a = a.absorb ns text := by
  induction h generalizing a with
  | nil => exact a.absorb_nil.symm
  | text content _ ih | literal content _ ih =>
    rw [List.foldl_cons, ih, Assembly.step, Assembly.addText_eq_absorb, Assembly.absorb_absorb,
      List.nil_append]
  | skipped _ ih => exact ih a
  | empty tag _ ih =>
    rw [List.foldl_cons, ih, Assembly.step, Assembly.attach_eq_absorb, Assembly.absorb_absorb,
      List.singleton_append, String.empty_append]
  | @element ns children text content events inner tag _ _ ihinner ih =>
    -- What stands in the element is added to it, and it is added to what was open before it.
    have hclose : Assembly.step ((a.step (.start tag)).absorb children content) .close =
        a.attach ⟨tag.kind, tag.attributes, content, children⟩ := by
      simp [Assembly.step, Assembly.absorb, Tag.element]
    rw [List.foldl_cons, List.foldl_append, List.foldl_cons, ihinner, hclose, ih,
      Assembly.attach_eq_absorb, Assembly.absorb_absorb, List.singleton_append,
      String.empty_append]

/-! ### Elements that stay open -/

namespace Event

/-- The event starts an element with content. -/
def isStart : Event → Bool
  | start _ => true
  | _ => false

/-- The event ends an element. -/
def isClose : Event → Bool
  | close => true
  | _ => false

end Event

/-- Of `depth` open elements the outermost stays open in the events: no beginning of them ends as
many elements as it starts and `depth` more. -/
def KeepsOpen (depth : Nat) (events : List Event) : Prop :=
  ∀ front, front <+: events → front.countP Event.isClose < front.countP Event.isStart + depth

/-- The events start an element that they never end. -/
def Unclosed (events : List Event) : Prop :=
  ∃ before tag after, events = before ++ .start tag :: after ∧ KeepsOpen 1 after

section KeepsOpen

variable {depth : Nat} {e : Event} {events : List Event}

theorem KeepsOpen.pos (h : KeepsOpen depth events) : 0 < depth := by
  simpa using h [] List.nil_prefix

theorem keepsOpen_nil_iff : KeepsOpen depth [] ↔ 0 < depth := by
  refine ⟨KeepsOpen.pos, ?_⟩
  intro hdepth front hfront
  simpa [List.prefix_nil.1 hfront] using hdepth

/-- An event changes the number of open elements by what it starts and ends. -/
theorem countP_cons_lt_iff (hdepth : 0 < depth) (e : Event) (front : List Event) :
    (e :: front).countP Event.isClose < (e :: front).countP Event.isStart + depth ↔
      front.countP Event.isClose < front.countP Event.isStart + e.depthAfter depth := by
  rw [List.countP_cons, List.countP_cons]
  cases e <;> simp [Event.isClose, Event.isStart, Event.depthAfter] <;> omega

theorem keepsOpen_cons_iff :
    KeepsOpen depth (e :: events) ↔ 0 < depth ∧ KeepsOpen (e.depthAfter depth) events := by
  constructor
  · intro h
    refine ⟨h.pos, ?_⟩
    intro front hfront
    exact (countP_cons_lt_iff h.pos e front).1 (h _ (List.cons_prefix_cons.2 ⟨rfl, hfront⟩))
  · rintro ⟨hdepth, h⟩ front hfront
    cases front with
    | nil => simpa using hdepth
    | cons e' front =>
      obtain ⟨rfl, hrest⟩ := List.cons_prefix_cons.1 hfront
      exact (countP_cons_lt_iff hdepth e' front).2 (h front hrest)

theorem KeepsOpen.mono {depth' : Nat} (h : KeepsOpen depth events) (hle : depth ≤ depth') :
    KeepsOpen depth' events := by
  intro front hfront
  exact Nat.lt_of_lt_of_le (h front hfront) (Nat.add_le_add_left hle _)

theorem not_unclosed_nil : ¬ Unclosed [] := by
  rintro ⟨before, tag, after, h, -⟩
  exact List.append_ne_nil_of_right_ne_nil before (List.cons_ne_nil _ after) h.symm

theorem unclosed_cons_iff :
    Unclosed (e :: events) ↔ (∃ tag, e = .start tag ∧ KeepsOpen 1 events) ∨ Unclosed events := by
  constructor
  · rintro ⟨_ | ⟨e', before⟩, tag, after, h, hafter⟩
    · obtain ⟨rfl, rfl⟩ := List.cons.inj h
      exact .inl ⟨tag, rfl, hafter⟩
    · obtain ⟨-, rfl⟩ := List.cons.inj h
      exact .inr ⟨before, tag, after, rfl, hafter⟩
  · rintro (⟨tag, rfl, h⟩ | ⟨before, tag, after, rfl, hafter⟩)
    · exact ⟨[], tag, events, rfl, h⟩
    · exact ⟨e :: before, tag, after, rfl, hafter⟩

/-- An element stays open after an event if the event has started it and it stays open, or else
because one was open before. -/
theorem keepsOpen_depthAfter_iff : KeepsOpen (e.depthAfter depth) events ↔
    (∃ tag, e = .start tag ∧ KeepsOpen 1 events) ∨ 0 < depth ∧
      KeepsOpen (e.depthAfter depth) events := by
  constructor
  · intro h
    rcases Nat.eq_zero_or_pos depth with rfl | hdepth
    · left
      -- Nothing is open after any other event.
      cases e with
      | start tag => exact ⟨tag, rfl, h⟩
      | empty _ | close | text _ | literal _ | skipped => exact absurd h.pos (Nat.lt_irrefl 0)
    · exact .inr ⟨hdepth, h⟩
  · rintro (⟨tag, rfl, h⟩ | ⟨-, h⟩)
    · exact h.mono (Nat.le_add_left 1 depth)
    · exact h

/-- After some events an element is open just when one of those open before them stays open, or one
that they start is never ended. -/
theorem foldl_depthAfter_pos_iff (events : List Event) (depth : Nat) :
    0 < events.foldl Event.depthAfter depth ↔ Unclosed events ∨ KeepsOpen depth events := by
  induction events generalizing depth with
  | nil =>
    rw [List.foldl_nil, keepsOpen_nil_iff]
    exact (or_iff_right not_unclosed_nil).symm
  | cons e events ih =>
    rw [List.foldl_cons, ih, keepsOpen_depthAfter_iff, ← keepsOpen_cons_iff, or_left_comm,
      ← or_assoc, ← unclosed_cons_iff]

end KeepsOpen

namespace Assembly

theorem length_opened_foldl (a : Assembly) (events : List Event) :
    (events.foldl step a).opened.length = events.foldl Event.depthAfter a.opened.length := by
  induction events generalizing a with
  | nil => rfl
  | cons e events ih => rw [List.foldl_cons, List.foldl_cons, ih, length_opened_step]

/-- An element is open at the end just when the events start one that they never end. -/
theorem opened_ne_nil_iff (events : List Event) :
    (events.foldl step initial).opened ≠ [] ↔ Unclosed events := by
  have hnone : ¬ KeepsOpen 0 events := fun h => Nat.lt_irrefl 0 h.pos
  rw [← List.length_pos_iff, length_opened_foldl, initial, List.length_nil,
    foldl_depthAfter_pos_iff]
  exact or_iff_left hnone

/-- Nothing has been built at the end just when no element begins in the events. -/
theorem opened_eq_nil_and_root_eq_none_iff (events : List Event) :
    (events.foldl step initial).opened = [] ∧ (events.foldl step initial).root = none ↔
      tagsOf events = [] := by
  obtain ⟨roots, h⟩ := exists_accounts events
  rw [h.root_eq, ← h.tags_eq, List.append_eq_nil_iff, Node.flatMap_tags_eq_nil_iff,
    Node.flatMap_tags_eq_nil_iff, List.reverse_eq_nil_iff, List.getLast?_eq_none_iff, and_comm]

theorem finish_eq_unclosed_iff {a : Assembly} : a.finish = .error .unclosed ↔ a.opened ≠ [] := by
  unfold finish
  split <;> simp_all

theorem finish_eq_noRoot_iff {a : Assembly} :
    a.finish = .error .noRoot ↔ a.opened = [] ∧ a.root = none := by
  unfold finish
  split <;> simp_all

end Assembly

end Markup

namespace Node

theorem ofEvents_eq_unclosed_iff {events : List Event} :
    ofEvents events = .error .unclosed ↔ Unclosed events :=
  Assembly.finish_eq_unclosed_iff.trans (Assembly.opened_ne_nil_iff events)

theorem ofEvents_eq_noRoot_iff {events : List Event} :
    ofEvents events = .error .noRoot ↔ tagsOf events = [] :=
  Assembly.finish_eq_noRoot_iff.trans (Assembly.opened_eq_nil_and_root_eq_none_iff events)

theorem ofEvents_eq_ok_of_spelling {n : Node} {outside : String} {events : List Event}
    (h : Spelling [n] outside events) : ofEvents events = .ok n := by
  rw [ofEvents, h.foldl_step]
  rfl

/-- The tags of a document and its tree are read back from whatever spells them.  A tree with an
element that is never ended is refused, as is a document without elements. -/
theorem ofEvents_of_spelling (events : List Event) :
    (∀ tag content, Tag.Spelling tag content → Tag.read content = .ok tag) ∧
    (∀ n outside, Spelling [n] outside events → ofEvents events = .ok n) ∧
    ((ofEvents events).mapError MarkupError.message = .error "unexpected end of document" ↔
      Unclosed events) ∧
    ((ofEvents events).mapError MarkupError.message = .error "document has no root element" ↔
      tagsOf events = []) := by
  refine ⟨fun _ _ => Tag.read_of_spelling, fun _ _ => ofEvents_eq_ok_of_spelling, ?_, ?_⟩
  · rw [← ofEvents_eq_unclosed_iff]
    exact mapError_eq_error_iff (e := .unclosed) MarkupError.message_injective
  · rw [← ofEvents_eq_noRoot_iff]
    exact mapError_eq_error_iff (e := .noRoot) MarkupError.message_injective

/-- A note with a prefix and an identifier, its text cut in two by an element. -/
theorem ofEvents_of_spelling_note :
    ∃ tag b c n, Tag.Spelling tag "dia:note id='n1'".toUTF8.toList ∧
      Tag.read "dia:note id='n1'".toUTF8.toList = .ok tag ∧
      tag.kind = "note" ∧ tag.attributes.entries = [("id", "n1")] ∧
      n.tag = tag ∧ n.text = "two words" ∧ n.children.map Node.tag = [b, c] ∧
      ofEvents [.skipped, .start tag, .text "two ", .empty b, .skipped, .literal "words",
        .start c, .close, .close, .text "after"] = .ok n ∧
      (ofEvents [.start tag, .text "two ", .start b, .close]).mapError MarkupError.message =
        .error "unexpected end of document" ∧
      (ofEvents [.skipped, .text "after"]).mapError MarkupError.message =
        .error "document has no root element" := by
  have hbytes : "dia:note id='n1'".toUTF8.toList = ascii "dia:note" ++ ([0x20] ++ (ascii "id" ++
      ([] ++ 0x3D :: ([] ++ 0x27 :: (ascii "n1" ++ 0x27 :: []))))) := by decide +kernel
  have hattribute : Tag.AttributeSpelling [("id", "n1")] ([0x20] ++ (ascii "id" ++
      ([] ++ 0x3D :: ([] ++ 0x27 :: (ascii "n1" ++ 0x27 :: []))))) :=
    .cons (by decide +kernel) (by decide +kernel) (by decide +kernel) (by decide +kernel)
      (by decide +kernel) (by decide +kernel) (by decide) (by decide +kernel) (by decide +kernel)
      (.nil (by decide +kernel))
  have hname : Tag.IsFullName (ascii "dia:note") (ascii "note") :=
    .inr ⟨ascii "dia", by decide +kernel, by decide +kernel⟩
  have htag : Tag.Spelling ⟨"note", ⟨[("id", "n1")], by decide⟩⟩
      "dia:note id='n1'".toUTF8.toList := by
    rw [hbytes]
    exact .mk (by decide +kernel) hname (by decide +kernel) (by decide +kernel) hattribute
  have hnote := Spelling.skipped <| .element ⟨"note", ⟨[("id", "n1")], by decide⟩⟩
    (.text "two " <| .empty ⟨"b", Dictionary.empty⟩ <| .skipped <| .literal "words" <|
      .element ⟨"c", Dictionary.empty⟩ .nil .nil) (.text "after" .nil)
  have hopen : Unclosed [.start ⟨"note", ⟨[("id", "n1")], by decide⟩⟩, .text "two ",
      .start ⟨"b", Dictionary.empty⟩, .close] := by
    refine ⟨[], _, _, rfl, ?_⟩
    simp [keepsOpen_cons_iff, keepsOpen_nil_iff, Event.depthAfter]
  exact ⟨_, ⟨"b", Dictionary.empty⟩, ⟨"c", Dictionary.empty⟩, _, htag,
    (ofEvents_of_spelling []).1 _ _ htag, rfl, rfl, rfl, by decide, rfl,
    (ofEvents_of_spelling _).2.1 _ _ hnote, (ofEvents_of_spelling _).2.2.1.2 hopen,
    (ofEvents_of_spelling _).2.2.2.2 rfl⟩

end Node

end ClassDiagram
