/-!
# Warnings

What is dropped from a drawing without failing is reported by a warning.
-/

namespace ClassDiagram

/-- Something that was dropped. -/
inductive Warning where
  /-- A token of the stereotype of an entity means nothing. -/
  | unknownClassStereotype (entity token : String)
  /-- The stereotype of an attribute means nothing. -/
  | unknownAttributeStereotype (entity name stereotype : String)
  /-- The stereotype of a realization means nothing, and the edge is dropped. -/
  | unknownRealizationStereotype (edge stereotype : String)
  /-- The stereotype of a dependency means nothing, and the edge is dropped. -/
  | unknownDependencyStereotype (edge stereotype : String)
deriving DecidableEq

namespace Warning

/-- The message on a dropped edge. -/
def droppedEdge (edge stereotype : String) : String :=
  "Dropping " ++ edge ++ " with unknown stereotype '" ++ stereotype ++ "'"

/-- What is reported to the reader of the diagram. -/
def message : Warning → String
  | unknownClassStereotype entity token =>
    "Ignoring unknown stereotype '" ++ token ++ "' on '" ++ entity ++ "'"
  | unknownAttributeStereotype entity name stereotype =>
    "Unknown stereotype '" ++ stereotype ++ "' on attribute '" ++ name ++ "' of '" ++
      entity ++ "', assuming val"
  | unknownRealizationStereotype edge stereotype => droppedEdge edge stereotype
  | unknownDependencyStereotype edge stereotype => droppedEdge edge stereotype

end Warning

end ClassDiagram
