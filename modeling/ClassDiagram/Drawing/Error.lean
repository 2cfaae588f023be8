import ClassDiagram.Text.Quoted
import ClassDiagram.Markup.Error

/-!
# What can be wrong with a drawing

A drawing cannot be read when it is no document at all, or when an element lacks what its kind
calls for, holds a payload of the wrong kind, or holds one whose value cannot be decoded.
-/

namespace ClassDiagram

/-- The kinds of payload an attribute of an element can hold, and the handle of a connection. -/
inductive PayloadKind where
  | string | real | boolean | enumeration | point | handle
deriving DecidableEq

/-- The name of a payload kind, which is also the kind of the element that holds the payload. -/
def PayloadKind.name : PayloadKind → String
  | string => "string"
  | real => "real"
  | boolean => "boolean"
  | enumeration => "enum"
  | point => "point"
  | handle => "handle"

/-- Why something cannot be read from a drawing. -/
inductive DrawingError where
  /-- The document is no well formed markup. -/
  | markup (cause : MarkupError)
  /-- The element has no child under this name. -/
  | missingChild (name element : String)
  /-- The element has no attribute of this name. -/
  | missingAttribute (name element : String)
  /-- The child under this name holds a payload of another kind. -/
  | wrongPayload (name element : String) (expected : PayloadKind) (found : String)
  /-- The value under this name cannot be decoded. -/
  | invalid (kind : PayloadKind) (name element value : String)
deriving DecidableEq

/-- What is reported to the reader of the diagram. -/
def DrawingError.message : DrawingError → String
  | markup cause => "XML error: " ++ cause.message
  | missingChild name element => "Missing child '" ++ name ++ "' on " ++ element
  | missingAttribute name element => "Missing attribute '" ++ name ++ "' on " ++ element
  | wrongPayload name element expected found =>
    "Child '" ++ name ++ "' on " ++ element ++ " holds a " ++ found ++ " payload, expected " ++
      expected.name
  | invalid kind name element value =>
    "Invalid " ++ kind.name ++ " payload '" ++ name ++ "' on " ++ element ++ ": " ++
      Text.quoted value

end ClassDiagram
