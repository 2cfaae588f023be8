/-!
# What can be wrong with a document

The ways in which a document fails to be markup, with the wording of each.
-/

namespace ClassDiagram

/-- Why bytes are no document. -/
inductive MarkupError where
  /-- The markup is cut off or its tags do not match. -/
  | malformed
  /-- A run of text is not UTF-8, or has an unknown reference in it. -/
  | text
  /-- An attribute has no quoted value, or occurs twice. -/
  | attributeForm
  /-- The name of an attribute is not UTF-8. -/
  | attributeName
  /-- The value of an attribute is not UTF-8, or has an unknown reference in it. -/
  | attributeValue
  /-- The name of an element is not UTF-8. -/
  | elementName
  /-- An element is still open at the end. -/
  | unclosed
  /-- The document has no element. -/
  | noRoot
  /-- The bytes are compressed. -/
  | compressed
deriving DecidableEq

/-- What is reported to the reader of the diagram. -/
def MarkupError.message : MarkupError → String
  | malformed => "XML parse error"
  | text => "Text error"
  | attributeForm => "Attribute error"
  | attributeName => "Attribute key error"
  | attributeValue => "Attribute value error"
  | elementName => "Invalid tag name"
  | unclosed => "unexpected end of document"
  | noRoot => "document has no root element"
  | compressed => "input is gzip-compressed; decompress the diagram before reading it"

end ClassDiagram
