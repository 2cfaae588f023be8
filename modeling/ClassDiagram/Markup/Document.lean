import ClassDiagram.Markup.Scanner

/-!
# Documents

A drawing is stored as markup.  `Node.ofBytes` reads it: the events of the document are scanned and
put together into a tree.  A mark of the byte order at the beginning is skipped; compressed bytes
are recognized by their first two and refused.
-/

namespace ClassDiagram.Node

open Markup

/-- The document without a byte order mark at its beginning. -/
def dropByteOrderMark (s : List UInt8) : List UInt8 :=
  (List.isPrefixOf? [0xEF, 0xBB, 0xBF] s).getD s

/-- The drawing stored in the bytes of a document. -/
def ofBytes (s : List UInt8) : Except MarkupError Node :=
  if List.isPrefixOf [0x1F, 0x8B] s then .error .compressed
  else scan [] (dropByteOrderMark s) >>= ofEvents

/-- The drawing stored in the text of a document. -/
def ofDocument (s : String) : Except MarkupError Node :=
  ofBytes s.toUTF8.toList

end ClassDiagram.Node
