import ClassDiagram.Model.OfDrawing
import ClassDiagram.Proofs.Model.Ancestry
import ClassDiagram.Proofs.Outcome.Stages

/-!
# The errors of each stage

Every function that can fail is shown to raise errors of the stages that call it only, from the
readers of members up to the stages themselves (`Package.enters_readAll`, `Entity.enters_readAll`,
`Model.enters_resolveGeneralizations` and so on).  What is called from several stages has its lemma
for any of them: type expressions and bindings stand in classes and in associations, ends in all
stages that read edges.
-/

namespace ClassDiagram

open Stage Stereotype Traced

variable {s : Stage}

/-! ### Packages and classes -/

/-- Packages are read in their own stage, where only the drawing can be at fault. -/
theorem Package.enters_readAll (drawing : Node) :
    (Package.readAll drawing).Enters [.packages] .packages :=
  (Enters.enter .packages).bind fun _ => .ofDrawing (by decide) _

/-- A type that cannot be read is an error of each stage in which types are read. -/
theorem TypeExpr.covers_readAt (hs : s ∈ [.classes, .associations]) (site : TypeSite)
    (text : String) : s.Covers (readAt site text) := by
  unfold readAt
  cases parse text with
  | error e => exact .error hs
  | ok t => exact .ok t

theorem TypeExpr.covers_readUnlessBlank (hs : s ∈ [.classes, .associations]) (site : TypeSite)
    (text : String) : s.Covers (readUnlessBlank site text) := by
  unfold readUnlessBlank
  split
  · exact .ok none
  · exact (covers_readAt hs site text).map some

/-- Binding a member can contradict the mutability of its owner, which is an error of each stage in
which attributes are made. -/
theorem Stereotype.enters_bindMember (hs : s ∈ [.classes, .associations]) (owner : String)
    (mutability : Option Mutability) (name : String) (stereotype : Option String) :
    (bindMember owner mutability name stereotype).Enters [] s := by
  unfold bindMember
  split
  · exact .ok _
  · split
    · split
      · exact .ofExcept (.error hs)
      · exact .ok _
    · exact (Enters.warn _).bind fun _ => .ok _

theorem Attribute.enters_read (owner : String) (mutability : Option Mutability) (record : Node) :
    (Attribute.read owner mutability record).Enters [] .classes := by
  refine (Enters.ofDrawing (by decide) _).bind fun name => ?_
  refine (enters_bindMember (by decide) _ _ _ _).bind fun flags => ?_
  refine (Enters.ofDrawing (by decide) _).bind fun text => ?_
  refine (Enters.ofExcept (TypeExpr.covers_readUnlessBlank (by decide) _ _)).bind fun type => ?_
  refine (Enters.ofDrawing (by decide) _).bind fun visibility => ?_
  refine (Enters.ofDrawing (by decide) _).bind fun default => ?_
  exact (Enters.ofDrawing (by decide) _).bind fun isClassScope => .ok _

theorem Parameter.covers_read (owner operation : String) (record : Node) :
    Stage.classes.Covers (Parameter.read owner operation record) := by
  refine (Covers.drawing (by decide) _).bind fun name => ?_
  refine (Covers.drawing (by decide) _).bind fun text => ?_
  refine (TypeExpr.covers_readAt (by decide) _ _).bind fun type => ?_
  exact (Covers.drawing (by decide) _).bind fun default => .ok _

theorem Operation.covers_read (owner : String) (record : Node) :
    Stage.classes.Covers (Operation.read owner record) := by
  refine (Covers.drawing (by decide) _).bind fun name => ?_
  refine (Covers.drawing (by decide) _).bind fun text => ?_
  refine (TypeExpr.covers_readUnlessBlank (by decide) _ _).bind fun returnType => ?_
  refine (Covers.drawing (by decide) _).bind fun visibility => ?_
  refine (Covers.drawing (by decide) _).bind fun isClassScope => ?_
  exact (Covers.mapM (Parameter.covers_read _ _) _).bind fun parameters => .ok _

theorem Stereotype.ClassStereotypes.covers_addTokens (entity : String) (tokens : List String)
    (c : ClassStereotypes) (first : Option String) :
    Stage.classes.Covers (addTokens entity c first tokens) := by
  induction tokens generalizing c first with
  | nil => exact .ok c
  | cons token tokens ih =>
    unfold addTokens
    split
    · exact .error (List.mem_singleton_self _)
    · exact ih _ _
    · exact ih _ _

/-- Stereotypes that contradict each other are an error of the stage of classes. -/
theorem Stereotype.ClassStereotypes.covers_read (entity text : String) :
    Stage.classes.Covers (ClassStereotypes.read entity text) := by
  refine (covers_addTokens _ _ _ _).bind fun c => ?_
  split
  · exact .error (List.mem_singleton_self _)
  · exact .ok c

/-- A class is read in the stage of classes, with its stereotypes and all its members. -/
theorem Entity.enters_read (n : Node) : (Entity.read n).Enters [] .classes := by
  refine (Enters.ofDrawing (by decide) _).bind fun id => ?_
  refine (Enters.ofDrawing (by decide) _).bind fun name => ?_
  refine (Enters.ofDrawing (by decide) _).bind fun geometry => ?_
  refine (Enters.ofDrawing (by decide) _).bind fun stereotype => ?_
  refine (Enters.ofExcept (ClassStereotypes.covers_read _ _)).bind fun stereotypes => ?_
  refine (Enters.warn _).bind fun _ => ?_
  refine (Enters.mapM (Attribute.enters_read _ _) _).bind fun attributes => ?_
  have hoperation (owner : String) (record : Node) :
      (ofExcept (Operation.read owner record)).Enters [] .classes :=
    .ofExcept (Operation.covers_read owner record)
  exact (Enters.mapM (hoperation _) _).bind fun operations => .ok _

theorem Entity.enters_readAll (drawing : Node) :
    (Entity.readAll drawing).Enters [.classes] .classes :=
  (Enters.enter .classes).bind fun _ => .mapM Entity.enters_read _

/-- The attribute that an end of an association adds fails in the stage of associations, if its name
is empty, its type cannot be read or its binding contradicts its owner. -/
theorem AssociationEnd.enters_toAttribute (edge : Node) (e : AssociationEnd)
    (owner target : Entity) : (e.toAttribute edge owner target).Enters [] .associations := by
  unfold AssociationEnd.toAttribute
  dsimp only
  split
  · exact .ofExcept (.error (List.mem_singleton_self _))
  · refine (enters_bindMember (by decide) _ _ _ _).bind fun flags => ?_
    split
    · exact (Enters.ofExcept (TypeExpr.covers_readAt (by decide) _ _)).bind fun type => .ok _
    · exact (Enters.ok _).bind fun type => .ok _

namespace Model

variable (drawing : Node) (m : Model)

theorem enters_packageStage : m.packageStage.Enters [.packageAssignment] .packageAssignment :=
  (Enters.enter .packageAssignment).bind fun _ => .ok _

/-- A companion that exists already is an error of the stage of companions. -/
theorem covers_splitCompanions : Stage.companions.Covers m.splitCompanions := by
  unfold splitCompanions
  split
  · exact .error (List.mem_singleton_self _)
  · exact .ok _

/-- Companions are made in the stage in which the drawn ones are marked. -/
theorem enters_companionStage_bind :
    (m.companionStage >>= fun n => ofExcept n.splitCompanions).Enters [.companions] .companions :=
  ((Enters.enter .companions).bind fun _ => .ok _).bind fun n => .ofExcept n.covers_splitCompanions

/-! ### Edges -/

section Ends

variable (hs : s ∈ edges)

include hs

/-- An end that is not attached to an entity is an error of each stage in which edges are read. -/
theorem covers_endpoint (edge : Node) (handle : UInt64) : s.Covers (m.endpoint edge handle) := by
  have hreading : s ∈ reading := List.mem_append_right _ hs
  refine (Covers.drawing hreading _).bind fun id => ?_
  split
  · exact .ok _
  · exact .error hs

theorem covers_endpoints (edge : Node) : s.Covers (m.endpoints edge) :=
  (m.covers_endpoint hs edge 0).bind fun _ => (m.covers_endpoint hs edge 1).bind fun _ => .ok _

theorem covers_reversedEndpoints (edge : Node) : s.Covers (m.reversedEndpoints edge) :=
  (m.covers_endpoint hs edge 1).bind fun _ => (m.covers_endpoint hs edge 0).bind fun _ => .ok _

end Ends

/-- A second superclass is an error of the stage of generalizations. -/
theorem covers_setSuperclass (es : List Entity) (ends : Endpoints) :
    Stage.generalizations.Covers (setSuperclass es ends) := by
  unfold setSuperclass
  split
  · split
    · exact .error (List.mem_singleton_self _)
    · exact .ok _
  · exact .ok _

theorem enters_resolveGeneralizations :
    (m.resolveGeneralizations drawing).Enters [.generalizations] .generalizations := by
  refine (Enters.enter .generalizations).bind fun _ => ?_
  refine (Enters.ofExcept (.mapM (m.covers_reversedEndpoints (by decide)) _)).bind fun ends => ?_
  exact .ofExcept ((Covers.foldlM covers_setSuperclass ends m.entities).map m.withEntities)

theorem enters_realizationEnds (edge : Node) :
    (m.realizationEnds edge).Enters [] .realizations := by
  refine (Enters.ofDrawing (by decide) _).bind fun stereotype => ?_
  split
  · exact (Enters.ofExcept (m.covers_reversedEndpoints (by decide) edge)).bind fun _ => .ok _
  · exact (Enters.warn _).bind fun _ => .ok _

/-- Realizations fail by a stereotype that cannot be read, or by the ends of one that adds a mixin. -/
theorem enters_resolveRealizations :
    (m.resolveRealizations drawing).Enters [.realizations] .realizations := by
  refine (Enters.enter .realizations).bind fun _ => ?_
  exact (Enters.mapM m.enters_realizationEnds _).bind fun ends => .ok _

theorem enters_dependencyEnds (edge : Node) : (m.dependencyEnds edge).Enters [] .dependencies := by
  refine (Enters.ofDrawing (by decide) _).bind fun stereotype => ?_
  split
  · exact .ok none
  · split
    · exact (Enters.ofExcept (m.covers_endpoints (by decide) edge)).bind fun _ => .ok _
    · exact (Enters.warn _).bind fun _ => .ok _

/-- Dependencies fail by a stereotype that cannot be read, or by the ends of one that names a
companion. -/
theorem enters_resolveDependencies :
    (m.resolveDependencies drawing).Enters [.dependencies] .dependencies := by
  refine (Enters.enter .dependencies).bind fun _ => ?_
  exact (Enters.mapM m.enters_dependencyEnds _).bind fun ends => .ok _

theorem enters_associationEndAddition (edge : Node) (side : AssociationSide)
    (own opposite : Nat) :
    (m.associationEndAddition edge side own opposite).Enters [] .associations := by
  refine (Enters.ofDrawing (by decide) _).bind fun e => ?_
  split
  · split
    · exact (e.enters_toAttribute _ _ _).bind fun a => .ok _
    · exact .ok none
  · exact .ok none

theorem enters_associationAdditions (edge : Node) :
    (m.associationAdditions edge).Enters [] .associations := by
  refine (Enters.ofExcept (m.covers_endpoints (by decide) edge)).bind fun ends => ?_
  refine (m.enters_associationEndAddition _ _ _ _).bind fun first => ?_
  exact (m.enters_associationEndAddition _ _ _ _).bind fun second => .ok _

theorem enters_resolveAssociations :
    (m.resolveAssociations drawing).Enters [.associations] .associations := by
  refine (Enters.enter .associations).bind fun _ => ?_
  exact (Enters.mapM m.enters_associationAdditions _).bind fun additions => .ok _

/-! ### The finished model -/

theorem enters_resolveCrossReferences :
    m.resolveCrossReferences.Enters [.crossReferences] .crossReferences :=
  (Enters.enter .crossReferences).bind fun _ => .ok _

/-- The search for ancestors fails by a cycle only, which is an error of the stage of overrides. -/
theorem covers_ancestorsFrom (chain : List EntityRef) (e : Entity) :
    Stage.overrides.Covers (m.ancestorsFrom chain e) := by
  induction chain, e using ancestorsFrom.induct m with
  | case1 chain e hr =>
    rw [ancestorsFrom_of_root hr]
    exact .ok _
  | case2 chain e r hr hmem =>
    rw [ancestorsFrom_of_cycle hr hmem]
    exact .error (List.mem_singleton_self _)
  | case3 chain e r hr hmem hp =>
    rw [ancestorsFrom_of_missing hr hmem hp]
    exact .ok _
  | case4 chain e r hr hmem parent hp ih =>
    rw [ancestorsFrom_of_parent hr hmem hp]
    exact ih.map _

theorem covers_markOverrides : Stage.overrides.Covers m.markOverrides := by
  have hflags (e : Entity) : Stage.overrides.Covers ((m.ancestors e).map e.overrideFlags) :=
    (m.covers_ancestorsFrom [e.reference] e).map e.overrideFlags
  exact (Covers.mapM hflags m.entities).map _

theorem enters_analyzeOverrides : m.analyzeOverrides.Enters [.overrides] .overrides :=
  (Enters.enter .overrides).bind fun _ => .ofExcept m.covers_markOverrides

/-- What is found wrong with the finished model is an error of the last stage. -/
theorem enters_check : m.check.Enters [.validation] .validation := by
  refine (Enters.enter .validation).bind fun _ => .ofExcept ?_
  unfold validated
  split
  · exact .ok m
  · exact .error (List.mem_singleton_self _)

end Model

end ClassDiagram
