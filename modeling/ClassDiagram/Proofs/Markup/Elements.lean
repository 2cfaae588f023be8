import ClassDiagram.Markup.Document
import ClassDiagram.Proofs.Outcome.Except

/-!
# Elements of a document

The elements of a document that stand in no other are finished one after the other.  While the
events are read, the finished ones and those that are still open hold just the elements of the
events so far, in document order (`Markup.Assembly.Accounts`), and each event keeps it so
(`Markup.Assembly.Accounts.exists_step`).

Of the finished elements only the last one is kept.  A document is therefore read without loss just
when one element holds all the others (`Node.keepsLast_of_ofEvents`).
-/

namespace ClassDiagram

open Markup

namespace Node

/-- The tag that the element has been made from. -/
def tag (n : Node) : Tag := ⟨n.kind, n.attributes⟩

/-- The tags of the element and of all elements below it, in document order. -/
def tags (n : Node) : List Tag := n.preorder.map tag

theorem tags_eq (n : Node) : n.tags = n.tag :: n.children.flatMap tags := by
  rw [tags, preorder, List.map_cons, descendants_eq, List.map_flatMap]
  rfl

/-- Every tree has a tag. -/
theorem flatMap_tags_eq_nil_iff {ns : List Node} : ns.flatMap tags = [] ↔ ns = [] := by
  rw [List.flatMap_eq_nil_iff, List.eq_nil_iff_forall_not_mem]
  refine forall₂_congr fun n _ => ?_
  simp [tags_eq n]

@[simp] theorem tags_element (t : Tag) : t.element.tags = [t] := by
  rw [tags_eq]
  rfl

@[simp] theorem tags_addChild (n child : Node) : (n.addChild child).tags = n.tags ++ child.tags := by
  rw [tags_eq, tags_eq n]
  simp [addChild, tag]

@[simp] theorem tags_addText (n : Node) (text : String) : (n.addText text).tags = n.tags := by
  rw [tags_eq, tags_eq]
  rfl

end Node

namespace Markup

/-! ### Elements of events -/

namespace Event

/-- The tag of an event that begins an element. -/
def tag? : Event → Option Tag
  | start tag | empty tag => some tag
  | close | text _ | literal _ | skipped => none

/-- How many elements are open after an event, if `depth` are open before it.  An end outside all
elements closes none. -/
def depthAfter (depth : Nat) : Event → Nat
  | start _ => depth + 1
  | close => depth - 1
  | empty _ | text _ | literal _ | skipped => depth

end Event

/-- The tags of the elements that begin in a list of events, in order. -/
def tagsOf (events : List Event) : List Tag := events.filterMap Event.tag?

/-- The tags of those elements that begin outside all others, if `depth` elements are open before
the events. -/
def outerTags (depth : Nat) : List Event → List Tag
  | [] => []
  | e :: events =>
    (if depth = 0 then e.tag?.toList else []) ++ outerTags (e.depthAfter depth) events

theorem tagsOf_cons (e : Event) (events : List Event) :
    tagsOf (e :: events) = e.tag?.toList ++ tagsOf events := by
  rw [tagsOf, tagsOf, List.filterMap_cons]
  cases e.tag? <;> rfl

namespace Assembly

variable {a : Assembly} {roots : List Node} {tags outer : List Tag}

@[simp] theorem map_tag_attach (a : Assembly) (n : Node) :
    (a.attach n).opened.map Node.tag = a.opened.map Node.tag := by
  unfold attach
  split
  · next h =>
    rw [h]
    rfl
  · rfl

@[simp] theorem map_tag_addText (a : Assembly) (content : String) :
    (a.addText content).opened.map Node.tag = a.opened.map Node.tag := by
  unfold addText
  split
  · next h =>
    rw [h]
    rfl
  · rfl

theorem length_opened_attach (a : Assembly) (n : Node) :
    (a.attach n).opened.length = a.opened.length := by
  have h := congrArg List.length (map_tag_attach a n)
  rwa [List.length_map, List.length_map] at h

theorem length_opened_addText (a : Assembly) (content : String) :
    (a.addText content).opened.length = a.opened.length := by
  have h := congrArg List.length (map_tag_addText a content)
  rwa [List.length_map, List.length_map] at h

theorem length_opened_step (a : Assembly) (e : Event) :
    (a.step e).opened.length = e.depthAfter a.opened.length := by
  cases e with
  | start tag => rfl
  | empty tag => exact length_opened_attach a tag.element
  | close =>
    rw [step]
    split
    · next h => simp [length_opened_attach, Event.depthAfter, h]
    · next h => simp [Event.depthAfter, h]
  | text content | literal content => exact length_opened_addText a content
  | skipped => rfl

/-! ### What has been built -/

/-- The elements `roots` have been finished outside all others, and the last one of them is the
root.  Together with the open elements they have the tags `tags`, and those of them that stand in no
other have the tags `outer`. -/
structure Accounts (a : Assembly) (roots : List Node) (tags outer : List Tag) : Prop where
  root_eq : a.root = roots.getLast?
  tags_eq : roots.flatMap Node.tags ++ a.opened.reverse.flatMap Node.tags = tags
  outer_eq : roots.map Node.tag ++ (a.opened.map Node.tag).getLast?.toList = outer

theorem accounts_initial : initial.Accounts [] [] [] := ⟨rfl, rfl, rfl⟩

namespace Accounts

/-- A finished element goes to the end of the innermost open element, or else is the next root. -/
theorem exists_attach (h : a.Accounts roots tags outer) (n : Node) :
    ∃ roots', (a.attach n).Accounts roots' (tags ++ n.tags)
      (outer ++ if a.opened.length = 0 then [n.tag] else []) := by
  obtain ⟨hroot, rfl, rfl⟩ := h
  obtain ⟨opened, root⟩ := a
  cases opened with
  | nil => exact ⟨roots ++ [n], by simp [attach], by simp [attach], by simp [attach]⟩
  | cons parent others =>
    refine ⟨roots, hroot, ?_, ?_⟩
    · simp [attach]
    · rw [map_tag_attach]
      simp

/-- Text belongs to no tag. -/
theorem addText (h : a.Accounts roots tags outer) (content : String) :
    (a.addText content).Accounts roots tags outer := by
  obtain ⟨hroot, htags, houter⟩ := h
  rw [← map_tag_addText a content] at houter
  obtain ⟨opened, root⟩ := a
  cases opened with
  | nil => exact ⟨hroot, htags, houter⟩
  | cons n others =>
    refine ⟨hroot, ?_, houter⟩
    simpa [Assembly.addText] using htags

/-- An event adds its element, and none is lost. -/
theorem exists_step (h : a.Accounts roots tags outer) (e : Event) :
    ∃ roots', (a.step e).Accounts roots' (tags ++ e.tag?.toList)
      (outer ++ if a.opened.length = 0 then e.tag?.toList else []) := by
  cases e with
  | start tag =>
    obtain ⟨hroot, rfl, rfl⟩ := h
    refine ⟨roots, hroot, by simp [step, Event.tag?], ?_⟩
    -- The new element stands in no other just when it is the only open one.
    cases hopened : a.opened with
    | nil => simp [step, Event.tag?, hopened, Tag.element, Node.tag]
    | cons n others => simp [step, hopened]
  | empty tag =>
    have hattach := h.exists_attach tag.element
    rw [Node.tags_element] at hattach
    exact hattach
  | close =>
    obtain ⟨opened, root⟩ := a
    cases opened with
    | nil => exact ⟨roots, by simpa [step, Event.tag?] using h⟩
    | cons n others =>
      -- Without the innermost element, the others account for all tags before those of it.
      obtain ⟨hroot, rfl, rfl⟩ := h
      have hothers : Accounts ⟨others, root⟩ roots _ _ := ⟨hroot, rfl, rfl⟩
      obtain ⟨roots', hattach⟩ := hothers.exists_attach n
      refine ⟨roots', hattach.root_eq, ?_, ?_⟩
      · rw [step, hattach.tags_eq]
        simp [Event.tag?]
      · rw [step, hattach.outer_eq]
        cases others <;> simp
  | text content | literal content =>
    refine ⟨roots, ?_⟩
    rw [Event.tag?, Option.toList_none, ite_self, List.append_nil, List.append_nil]
    exact h.addText content
  | skipped =>
    refine ⟨roots, ?_⟩
    rw [Event.tag?, Option.toList_none, ite_self, List.append_nil, List.append_nil]
    exact h

/-- What has been built after a list of events accounts for the elements of all of them. -/
theorem exists_foldl (h : a.Accounts roots tags outer) (events : List Event) :
    ∃ roots', (events.foldl step a).Accounts roots' (tags ++ tagsOf events)
      (outer ++ outerTags a.opened.length events) := by
  induction events generalizing a roots tags outer with
  | nil =>
    refine ⟨roots, ?_⟩
    rw [tagsOf, List.filterMap_nil, outerTags, List.append_nil, List.append_nil]
    exact h
  | cons e events ih =>
    obtain ⟨roots₁, h₁⟩ := h.exists_step e
    obtain ⟨roots₂, h₂⟩ := ih h₁
    refine ⟨roots₂, ?_⟩
    rw [length_opened_step, List.append_assoc, List.append_assoc] at h₂
    rw [tagsOf_cons, outerTags]
    exact h₂

end Accounts

theorem exists_accounts (events : List Event) : ∃ roots,
    (events.foldl step initial).Accounts roots (tagsOf events) (outerTags 0 events) :=
  accounts_initial.exists_foldl events

theorem finish_eq_ok_iff {n : Node} : a.finish = .ok n ↔ a.opened = [] ∧ a.root = some n := by
  unfold finish
  split <;> simp_all

end Assembly

end Markup

namespace Node

/-- The tree `root` holds the elements of the events from the last one on that stands in no other,
and those before it are lost, with all that they hold.  So all elements are in the tree, or as many
as there are, just when no other one stands outside it. -/
structure KeepsLast (root : Node) (events : List Event) : Prop where
  exists_lost : ∃ lost : List Node, tagsOf events = lost.flatMap tags ++ root.tags ∧
    outerTags 0 events = lost.map tag ++ [root.tag]
  tags_eq_iff : root.preorder.map tag = tagsOf events ↔ (outerTags 0 events).length = 1
  length_eq_iff : root.preorder.length = (tagsOf events).length ↔ (outerTags 0 events).length = 1

/-- Every document that is read keeps the last element that stands in no other, and of several only
that one. -/
theorem keepsLast_of_ofEvents {events : List Event} {root : Node}
    (h : ofEvents events = .ok root) : root.KeepsLast events := by
  obtain ⟨hopened, hroot⟩ := Assembly.finish_eq_ok_iff.1 h
  obtain ⟨roots, hroots⟩ := Assembly.exists_accounts events
  rw [hroots.root_eq, List.getLast?_eq_some_iff] at hroot
  obtain ⟨lost, rfl⟩ := hroot
  have htags : tagsOf events = lost.flatMap tags ++ root.tags := by
    simp [← hroots.tags_eq, hopened]
  have houter : outerTags 0 events = lost.map tag ++ [root.tag] := by
    simp [← hroots.outer_eq, hopened]
  have hone : (outerTags 0 events).length = 1 ↔ lost.flatMap tags = [] := by
    rw [houter, flatMap_tags_eq_nil_iff]
    simp
  refine ⟨⟨lost, htags, houter⟩, ?_, ?_⟩
  · rw [hone, htags]
    exact List.self_eq_append_left
  · have hlength : root.preorder.length = root.tags.length := (List.length_map tag).symm
    rw [hone, htags, hlength, List.length_append, ← List.length_eq_zero_iff]
    exact Nat.right_eq_add

/-- All elements of a diagram with a layer and an object on it are kept. -/
theorem keepsLast_of_layer :
    ∃ events root,
      scan [] "<diagram><layer> on it: <object/></layer></diagram>".toUTF8.toList = .ok events ∧
      ofEvents events = .ok root ∧ root.KeepsLast events ∧
      (root.preorder.map tag).map Tag.kind = ["diagram", "layer", "object"] := by
  have hread : (scan [] "<diagram><layer> on it: <object/></layer></diagram>".toUTF8.toList >>=
      fun events => (ofEvents events).map fun root => (events, root)).toOption.map
        (fun p => ((tagsOf p.1).map Tag.kind, (outerTags 0 p.1).length)) =
      some (["diagram", "layer", "object"], 1) := by decide +kernel
  obtain ⟨p, hp, hfound⟩ := exists_eq_ok_of_toOption_map hread
  obtain ⟨events, hevents, hp⟩ := bind_eq_ok_iff.1 hp
  obtain ⟨root, hroot, rfl⟩ := map_eq_ok_iff.1 hp
  obtain ⟨hkinds, hone⟩ := Prod.mk.inj hfound
  have hkeeps := keepsLast_of_ofEvents hroot
  refine ⟨events, root, hevents, hroot, hkeeps, ?_⟩
  rw [hkeeps.tags_eq_iff.2 hone]
  exact hkinds

/-- A diagram is lost with its layer if a note stands after it. -/
theorem tags_ne_of_secondElement :
    ∃ events root,
      scan [] "<diagram><layer/></diagram><note/>".toUTF8.toList = .ok events ∧
      ofEvents events = .ok root ∧ (tagsOf events).map Tag.kind = ["diagram", "layer", "note"] ∧
      (root.preorder.map tag).map Tag.kind = ["note"] ∧
      root.preorder.length ≠ (tagsOf events).length ∧ root.preorder.map tag ≠ tagsOf events := by
  have hread : (scan [] "<diagram><layer/></diagram><note/>".toUTF8.toList >>=
      fun events => (ofEvents events).map fun root => (events, root)).toOption.map
        (fun p => ((tagsOf p.1).map Tag.kind, (p.2.preorder.map tag).map Tag.kind)) =
      some (["diagram", "layer", "note"], ["note"]) := by decide +kernel
  obtain ⟨p, hp, hfound⟩ := exists_eq_ok_of_toOption_map hread
  obtain ⟨events, hevents, hp⟩ := bind_eq_ok_iff.1 hp
  obtain ⟨root, hroot, rfl⟩ := map_eq_ok_iff.1 hp
  obtain ⟨hall, hkept⟩ := Prod.mk.inj hfound
  have hlength : root.preorder.length ≠ (tagsOf events).length := by
    have h₁ := congrArg List.length hall
    have h₂ := congrArg List.length hkept
    simp only [List.length_map, List.length_cons, List.length_nil] at h₁ h₂
    omega
  refine ⟨events, root, hevents, hroot, hall, hkept, hlength, ?_⟩
  intro htags
  exact hlength (by rw [← htags, List.length_map])

end Node

end ClassDiagram
