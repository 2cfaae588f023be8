import ClassDiagram.Drawing.Node
import ClassDiagram.Markup.Tag

/-!
# Events

A document is a sequence of events: tags, runs of text, and what is skipped.  `Node.ofEvents` puts
the elements of the events together into a tree.  It keeps the elements that are still open, the
innermost first; a closed element becomes a child of the one it stands in, and one that stands in
no other becomes the root.
-/

namespace ClassDiagram

namespace Markup

/-- A piece of a document. -/
inductive Event where
  /-- The start of an element. -/
  | start (tag : Tag)
  /-- An element without content. -/
  | empty (tag : Tag)
  /-- The end of the innermost open element. -/
  | close
  /-- A run of text with its references replaced. -/
  | text (content : String)
  /-- A run of literal text. -/
  | literal (content : String)
  /-- A comment, a processing instruction or a declaration. -/
  | skipped

/-- The element of a tag, without content. -/
def Tag.element (tag : Tag) : Node :=
  ⟨tag.kind, tag.attributes, "", []⟩

/-- What the events so far have built. -/
structure Assembly where
  /-- The open elements with their content so far, the innermost first. -/
  opened : List Node
  /-- The last finished element that stands in no other. -/
  root : Option Node

namespace Assembly

/-- Before the first event. -/
def initial : Assembly := ⟨[], none⟩

/-- Puts a finished element into its parent, or makes it the root. -/
def attach (a : Assembly) (n : Node) : Assembly :=
  match a.opened with
  | parent :: others => { a with opened := parent.addChild n :: others }
  | [] => { a with root := some n }

/-- Adds text to the innermost open element.  Text outside all elements is dropped. -/
def addText (a : Assembly) (content : String) : Assembly :=
  match a.opened with
  | n :: others => { a with opened := n.addText content :: others }
  | [] => a

/-- What the events so far and one more have built. -/
def step (a : Assembly) : Event → Assembly
  | .start tag => { a with opened := tag.element :: a.opened }
  | .empty tag => a.attach tag.element
  | .close =>
    match a.opened with
    | n :: others => attach { a with opened := others } n
    | [] => a
  | .text content => a.addText content
  | .literal content => a.addText content
  | .skipped => a

/-- The tree at the end of the document. -/
def finish (a : Assembly) : Except MarkupError Node :=
  match a.opened, a.root with
  | [], some root => .ok root
  | [], none => .error .noRoot
  | _ :: _, _ => .error .unclosed

end Assembly

end Markup

open Markup in
/-- The tree that a sequence of events spells. -/
def Node.ofEvents (events : List Event) : Except MarkupError Node :=
  (events.foldl Assembly.step Assembly.initial).finish

end ClassDiagram
