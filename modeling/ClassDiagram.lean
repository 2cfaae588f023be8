import ClassDiagram.Drawing.Compose
import ClassDiagram.Model.OfDrawing
import ClassDiagram.Proofs.Outcome.Traced
import ClassDiagram.Proofs.TypeExpr.Grammar
import ClassDiagram.TypeExpr.Printer
import ClassDiagram.Proofs.TypeExpr.Spelling
import ClassDiagram.Proofs.TypeExpr.RoundTrip
import ClassDiagram.Proofs.Model.Frame
import ClassDiagram.Proofs.Edge.Association
import ClassDiagram.Proofs.Model.Qualified
import ClassDiagram.Proofs.Model.AssociationTypes
import ClassDiagram.Proofs.Model.ImportIndependence
import ClassDiagram.Proofs.Model.Members
import ClassDiagram.Proofs.Model.Soundness
import ClassDiagram.Proofs.Model.Diagnostics
import ClassDiagram.Proofs.Model.Hierarchy
import ClassDiagram.Proofs.Model.Companions
import ClassDiagram.Proofs.Model.Identity
import ClassDiagram.Proofs.Edge.Order
import ClassDiagram.Proofs.Edge.Attachment
import ClassDiagram.Proofs.Edge.Generalization
import ClassDiagram.Proofs.Edge.Stereotyped
import ClassDiagram.Proofs.Text.Cut
import ClassDiagram.Proofs.Stereotype.Member
import ClassDiagram.Proofs.Model.Warnings
import ClassDiagram.Proofs.Model.Bindings
import ClassDiagram.Proofs.TypeExpr.WellFormed
import ClassDiagram.Proofs.Model.WellFormedTypes
import ClassDiagram.Proofs.Edge.Role
import ClassDiagram.Proofs.Edge.RoleSpelling
import ClassDiagram.Proofs.Edge.Navigation
import ClassDiagram.Proofs.Model.Grouping
import ClassDiagram.Proofs.Model.Reachable
import ClassDiagram.Proofs.Markup.Elements
import ClassDiagram.Proofs.Markup.Spelling
import ClassDiagram.Proofs.Model.Cycles
import ClassDiagram.Proofs.Model.OverrideFlags
import ClassDiagram.Proofs.Model.OverrideOrder
import ClassDiagram.Proofs.Model.Splitting
import ClassDiagram.Proofs.Model.CrossReferences
import ClassDiagram.Proofs.Model.OverriddenMembers
import ClassDiagram.Proofs.TypeExpr.Refusal
import ClassDiagram.Proofs.TypeExpr.Traversal
import ClassDiagram.Proofs.Stereotype.Class
import ClassDiagram.Proofs.TypeExpr.Commas
import ClassDiagram.Proofs.Stereotype.Token
import ClassDiagram.Proofs.Model.Imports
import ClassDiagram.Proofs.Drawing.Payload
import ClassDiagram.Proofs.TypeExpr.OffsetReading
