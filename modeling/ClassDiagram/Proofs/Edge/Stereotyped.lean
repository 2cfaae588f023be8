import ClassDiagram.Proofs.Edge.Generalization
import ClassDiagram.Proofs.Model.OverriddenMembers

/-!
# What realizations and dependencies come to

Both stages read the stereotype of an edge first, and they look for its ends only if the stereotype
is one of theirs (`Model.ReadsEndsOf`).  So the ends of all other edges do not matter: such edges
can be changed, added or left out (`Model.RealizesExactly.of_others`).  An entity gets the mixins of
the realizations that start from it behind its own, in the order of the edges (`Model.MixesIn`), and
is made an object, or marked to have a companion, by any companion dependency at it
(`Model.TakesCompanions`).  `Model.realizesExactly_and_dependsExactly` says so for all drawings.
-/

namespace ClassDiagram

/-! ### Edges by stereotype -/

namespace Node

variable {edge : Node} {words : List String}

/-- The realizations of a drawing, in document order. -/
def realizations (drawing : Node) : List Node := drawing.query "object" "UML - Realizes"

/-- The dependencies of a drawing, in document order. -/
def dependencies (drawing : Node) : List Node := drawing.query "object" "UML - Dependency"

/-- The stereotype of the edge can be read, and it is none of the words. -/
def HasOtherStereotype (words : List String) (edge : Node) : Prop :=
  ∃ s, edge.edgeStereotype = .ok s ∧ s ∉ words

instance : DecidablePred (HasOtherStereotype words) := fun edge =>
  match h : edge.edgeStereotype with
  | .ok s => decidable_of_iff (s ∉ words) (by simp [HasOtherStereotype, h])
  | .error _ => isFalse (by simp [HasOtherStereotype, h])

instance : DecidablePred AddsMixin := fun _ => inferInstanceAs (Decidable (_ ∨ _))

theorem HasOtherStereotype.not_addsMixin (h : edge.HasOtherStereotype ["", "mixin"]) :
    ¬ edge.AddsMixin := by
  obtain ⟨s, hs, hother⟩ := h
  simpa [AddsMixin, hs] using hother

theorem HasOtherStereotype.not_isCompanionDependency
    (h : edge.HasOtherStereotype ["hasA", "companionOf"]) :
    ¬ edge.isCompanionDependency = true := by
  obtain ⟨s, hs, hother⟩ := h
  simpa [isCompanionDependency_iff, hs] using hother

end Node

namespace Model

variable {drawing drawing' edge : Node} {m n : Model}

/-! ### Edges that are looked at -/

theorem readsEndsOf_realizationEnds (m : Model) :
    ReadsEndsOf Node.AddsMixin m.reversedEndpoints fun edge => (m.realizationEnds edge).result := by
  intro edge x
  unfold realizationEnds
  rw [Traced.result_bind_eq_ok_iff, ← exists_and_right]
  refine exists_congr fun s => ?_
  rw [Traced.result_liftM_eq_ok_iff]
  refine and_congr_right fun hs => ?_
  simp only [Node.AddsMixin, hs, Except.ok.injEq]
  split
  · simp [Traced.result_bind_eq_ok_iff, eq_comm (a := x)]
  · show Except.ok none = Except.ok x ↔ x = none
    rw [Except.ok.injEq, eq_comm]

/-- Edges with stereotypes of which `p` does not hold come to nothing, whatever they connect. -/
theorem ReadsEndsOf.filterMap_mapM_eq {p : Node → Prop} [DecidablePred p]
    {ends : Node → Except ModelError Endpoints} {read : Node → Except ModelError (Option Endpoints)}
    (h : ReadsEndsOf p ends read) {words : List String} {edges edges' : List Node}
    (hp : ∀ edge, edge.HasOtherStereotype words → ¬ p edge)
    (hedges : (edges'.filter fun edge => ¬ edge.HasOtherStereotype words) =
      (edges.filter fun edge => ¬ edge.HasOtherStereotype words)) :
    (edges'.mapM read).map (List.filterMap id) = (edges.mapM read).map (List.filterMap id) := by
  have hnone : ∀ edge, decide (¬ Node.HasOtherStereotype words edge) = false →
      read edge = .ok none := by
    intro edge hother
    have hother : edge.HasOtherStereotype words := by simpa using hother
    have ⟨s, hs, _⟩ := hother
    rw [h, if_neg (hp edge hother)]
    exact ⟨⟨s, hs⟩, rfl⟩
  rw [← map_filterMap_mapM_filter hnone edges', hedges, map_filterMap_mapM_filter hnone edges]

/-! ### Mixins -/

/-- The realizations of the drawing that start from the entity at the position `i`, in order. -/
def realizationsFrom (drawing : Node) (m : Model) (i : Nat) : List Node :=
  drawing.realizations.filter fun edge => edge.AddsMixin ∧ m.AttachedAt edge 1 i

/-- The realizations of the drawing make `e'` of the entity `e` at the position `i`: its mixins are
followed by the types that the realizations from it lead to. -/
def MixesIn (drawing : Node) (m : Model) (i : Nat) (e e' : Entity) : Prop :=
  ∃ added, e' = { e with mixins := e.mixins ++ added } ∧
    List.Forall₂ (fun edge t => m.AttachedType edge 0 t) (m.realizationsFrom drawing i) added

section Realizations

variable {ends : List Endpoints} (h : List.Forall₂ (fun edge x => m.reversedEndpoints edge = .ok x)
  (drawing.realizations.filter fun edge => edge.AddsMixin) ends)

include h

theorem forall₂_mixinsAt (i : Nat) :
    List.Forall₂ (fun edge t => m.AttachedType edge 0 t) (m.realizationsFrom drawing i)
      (mixinsAt m.typeAt? ends i) := by
  simp only [realizationsFrom, Bool.decide_and, Bool.and_comm]
  rw [← List.filter_filter, mixinsAt, List.filterMap_filter]
  refine forall₂_filter_filterMap h ?_
  intro edge x hx
  obtain ⟨hsource, htarget⟩ := reversedEndpoints_eq_ok_iff.1 hx
  simp only [attachedAt_iff, hsource, Except.ok.injEq, decide_eq_true_eq]
  by_cases hi : x.source = i
  · have ht := List.getElem?_eq_getElem (lt_length_of_endpoint htarget)
    have htype : m.typeAt? x.target = some (.user _) := congrArg _ ht
    rw [if_pos hi, if_pos hi]
    exact ⟨_, htype, (typeAt?_eq_some_iff htarget).1 htype⟩
  · rw [if_neg hi, if_neg hi]

theorem mixesIn_iff {i : Nat} {e e' : Entity} :
    m.MixesIn drawing i e e' ↔ e' = mixInAt m.typeAt? ends i e := by
  have hadded : ∀ added, List.Forall₂ (fun edge t => m.AttachedType edge 0 t)
      (m.realizationsFrom drawing i) added ↔ added = mixinsAt m.typeAt? ends i := fun _ =>
    forall₂_iff_eq (m.rightUnique_attachedType 0) (forall₂_mixinsAt h i)
  simp only [MixesIn, hadded, exists_eq_right, mixInAt]

end Realizations

/-- What the stage for realizations makes of the model and the drawing.  The edges that are looked
at have an empty stereotype or the stereotype `mixin`. -/
structure RealizesExactly (drawing : Node) (m : Model) : Prop where
  exists_iff : (∃ n, (m.resolveRealizations drawing).result = .ok n) ↔
    m.ConnectsThose Node.AddsMixin drawing.realizations
  eq_ok_iff : ∀ n, (m.resolveRealizations drawing).result = .ok n ↔
    m.ConnectsThose Node.AddsMixin drawing.realizations ∧ m.Becomes (m.MixesIn drawing) n
  /-- Only for each single entity does the order of its realizations matter. -/
  of_perm : ∀ drawing', drawing'.realizations.Perm drawing.realizations →
    (∀ i, m.realizationsFrom drawing' i = m.realizationsFrom drawing i) →
    SameValue (m.resolveRealizations drawing').result (m.resolveRealizations drawing).result
  /-- Edges with other stereotypes do not matter. -/
  of_others : ∀ drawing',
    (drawing'.realizations.filter fun edge => ¬ edge.HasOtherStereotype ["", "mixin"]) =
      (drawing.realizations.filter fun edge => ¬ edge.HasOtherStereotype ["", "mixin"]) →
    (m.resolveRealizations drawing').result = (m.resolveRealizations drawing).result

theorem exists_realizationEnds_iff :
    (∃ xs, List.Forall₂ (fun edge x => (m.realizationEnds edge).result = .ok x)
      drawing.realizations xs) ↔ m.ConnectsThose Node.AddsMixin drawing.realizations :=
  m.readsEndsOf_realizationEnds.exists_forall₂_iff fun _ => exists_reversedEndpoints_iff

/-- What realizations make of a model is told entity by entity. -/
theorem resolveRealizations_eq_ok_iff_becomes :
    (m.resolveRealizations drawing).result = .ok n ↔
      m.ConnectsThose Node.AddsMixin drawing.realizations ∧ m.Becomes (m.MixesIn drawing) n := by
  rw [eq_ok_iff_becomes_of_edits (fun _ => resolveRealizations_eq_ok_iff) fun xs hxs _ _ _ _ =>
    mixesIn_iff (m.readsEndsOf_realizationEnds.forall₂_filter hxs)]
  exact and_congr_left fun _ => exists_realizationEnds_iff

theorem result_resolveRealizations (drawing : Node) (m : Model) :
    (m.resolveRealizations drawing).result =
      ((drawing.realizations.mapM fun edge => (m.realizationEnds edge).result).map
        (List.filterMap id)).map m.addMixins := by
  rw [resolveRealizations, Traced.result_enter_bind, Traced.result_bind, Traced.result_mapM,
    Node.realizations]
  cases (drawing.query "object" "UML - Realizes").mapM fun edge =>
    (m.realizationEnds edge).result <;> rfl

theorem realizesExactly (drawing : Node) (m : Model) : m.RealizesExactly drawing := by
  refine ⟨?_, fun n => resolveRealizations_eq_ok_iff_becomes, ?_, ?_⟩
  · rw [exists_eq_ok_iff_of_edits fun n => resolveRealizations_eq_ok_iff]
    exact exists_realizationEnds_iff
  · intro drawing' hperm hfrom
    apply sameValue_of_iff
    intro n
    have hconnects : m.ConnectsThose Node.AddsMixin drawing'.realizations ↔
        m.ConnectsThose Node.AddsMixin drawing.realizations := by
      simp only [ConnectsThose, hperm.mem_iff]
    have hmixes : m.MixesIn drawing' = m.MixesIn drawing := by
      funext i e e'
      rw [MixesIn, hfrom, MixesIn]
    rw [resolveRealizations_eq_ok_iff_becomes, resolveRealizations_eq_ok_iff_becomes, hconnects,
      hmixes]
  · intro drawing' hothers
    rw [result_resolveRealizations, result_resolveRealizations,
      m.readsEndsOf_realizationEnds.filterMap_mapM_eq
        (fun _ => Node.HasOtherStereotype.not_addsMixin) hothers]

/-! ### Companions -/

/-- The companion dependencies of the drawing make `e'` of the entity `e` at the position `i`: an
object if one of them is attached to it with its handle 0, and an entity with a companion if one is
with its handle 1. -/
structure TakesCompanions (drawing : Node) (m : Model) (i : Nat) (e e' : Entity) : Prop where
  eq_with : e' = { e with kind := e'.kind, hasCompanion := e'.hasCompanion }
  kind_eq_object_iff : e'.kind = .object ↔
    e.kind = .object ∨ ∃ edge ∈ drawing.companionDependencies, m.AttachedAt edge 0 i
  kind_eq_of_ne : e'.kind ≠ .object → e'.kind = e.kind
  hasCompanion_iff : e'.hasCompanion = true ↔
    e.hasCompanion = true ∨ ∃ edge ∈ drawing.companionDependencies, m.AttachedAt edge 1 i

theorem takesCompanions_iff {ends : List Endpoints}
    (h : List.Forall₂ (fun edge x => m.endpoints edge = .ok x) drawing.companionDependencies ends)
    {i : Nat} {e e' : Entity} :
    m.TakesCompanions drawing i e e' ↔ e' = companionAt ends i e := by
  have hsource : (ends.any fun x => x.source = i) = true ↔
      ∃ edge ∈ drawing.companionDependencies, m.AttachedAt edge 0 i := by
    simpa only [HasCompanionEnd, attachedAt_iff] using any_source_iff h
  have htarget : (ends.any fun x => x.target = i) = true ↔
      ∃ edge ∈ drawing.companionDependencies, m.AttachedAt edge 1 i := by
    simpa only [HasCompanionEnd, attachedAt_iff] using any_target_iff h
  constructor
  · rintro ⟨heq, hobject, hkind, hcompanion⟩
    rw [← hsource] at hobject
    rw [← htarget, ← Bool.or_eq_true] at hcompanion
    have hkind' : e'.kind = if ends.any fun x => x.source = i then .object else e.kind := by
      split
      · next hany => exact hobject.2 (.inr hany)
      · next hany =>
        by_cases hk : e'.kind = .object
        · rw [hk, (hobject.1 hk).resolve_right hany]
        · exact hkind hk
    rw [heq, hkind', Bool.eq_iff_iff.2 hcompanion, companionAt]
  · rintro rfl
    refine ⟨rfl, ?_, ?_, ?_⟩
    · rw [← hsource, companionAt]
      dsimp only
      split_ifs with hany <;> simp [hany]
    · intro hkind
      rw [companionAt] at hkind ⊢
      dsimp only at hkind ⊢
      split_ifs at hkind ⊢ with hany
      · exact absurd rfl hkind
      · rfl
    · rw [← htarget, ← Bool.or_eq_true, companionAt]

/-- What the stage for dependencies makes of the model and the drawing. -/
structure DependsExactly (drawing : Node) (m : Model) : Prop where
  exists_iff : (∃ n, (m.resolveDependencies drawing).result = .ok n) ↔
    m.ConnectsThose (fun edge => edge.isCompanionDependency = true) drawing.dependencies
  eq_ok_iff : ∀ n, (m.resolveDependencies drawing).result = .ok n ↔
    m.ConnectsThose (fun edge => edge.isCompanionDependency = true) drawing.dependencies ∧
      m.Becomes (m.TakesCompanions drawing) n
  /-- The order of the dependencies does not matter. -/
  of_perm : ∀ drawing', drawing'.dependencies.Perm drawing.dependencies →
    SameValue (m.resolveDependencies drawing').result (m.resolveDependencies drawing).result
  /-- Edges with other stereotypes do not matter. -/
  of_others : ∀ drawing',
    (drawing'.dependencies.filter fun edge => ¬ edge.HasOtherStereotype ["hasA", "companionOf"]) =
      (drawing.dependencies.filter fun edge => ¬ edge.HasOtherStereotype ["hasA", "companionOf"]) →
    (m.resolveDependencies drawing').result = (m.resolveDependencies drawing).result

theorem exists_dependencyEnds_iff :
    (∃ xs, List.Forall₂ (fun edge x => (m.dependencyEnds edge).result = .ok x)
      drawing.dependencies xs) ↔
      m.ConnectsThose (fun edge => edge.isCompanionDependency = true) drawing.dependencies :=
  m.readsEndsOf_dependencyEnds.exists_forall₂_iff fun _ => exists_endpoints_iff

/-- What dependencies make of a model is told entity by entity. -/
theorem resolveDependencies_eq_ok_iff_becomes :
    (m.resolveDependencies drawing).result = .ok n ↔
      m.ConnectsThose (fun edge => edge.isCompanionDependency = true) drawing.dependencies ∧
        m.Becomes (m.TakesCompanions drawing) n := by
  rw [eq_ok_iff_becomes_of_edits (fun _ => resolveDependencies_eq_ok_iff) fun xs hxs _ _ _ _ =>
    takesCompanions_iff (forall₂_companionDependencies hxs)]
  exact and_congr_left fun _ => exists_dependencyEnds_iff

theorem result_resolveDependencies (drawing : Node) (m : Model) :
    (m.resolveDependencies drawing).result =
      ((drawing.dependencies.mapM fun edge => (m.dependencyEnds edge).result).map
        (List.filterMap id)).map m.setCompanions := by
  rw [resolveDependencies, Traced.result_enter_bind, Traced.result_bind, Traced.result_mapM,
    Node.dependencies]
  cases (drawing.query "object" "UML - Dependency").mapM fun edge =>
    (m.dependencyEnds edge).result <;> rfl

theorem takesCompanions_congr (h : ∀ edge, edge ∈ drawing'.companionDependencies ↔
    edge ∈ drawing.companionDependencies) :
    m.TakesCompanions drawing' = m.TakesCompanions drawing := by
  have hat : ∀ handle i,
      (∃ edge ∈ drawing'.companionDependencies, m.AttachedAt edge handle i) ↔
        ∃ edge ∈ drawing.companionDependencies, m.AttachedAt edge handle i := by
    simp only [h, implies_true]
  funext i e e'
  apply propext
  constructor
  · rintro ⟨heq, hobject, hkind, hcompanion⟩
    exact ⟨heq, hobject.trans (or_congr_right (hat 0 i)), hkind,
      hcompanion.trans (or_congr_right (hat 1 i))⟩
  · rintro ⟨heq, hobject, hkind, hcompanion⟩
    exact ⟨heq, hobject.trans (or_congr_right (hat 0 i).symm), hkind,
      hcompanion.trans (or_congr_right (hat 1 i).symm)⟩

theorem dependsExactly (drawing : Node) (m : Model) : m.DependsExactly drawing := by
  refine ⟨?_, fun n => resolveDependencies_eq_ok_iff_becomes, ?_, ?_⟩
  · rw [exists_eq_ok_iff_of_edits fun n => resolveDependencies_eq_ok_iff]
    exact exists_dependencyEnds_iff
  · intro drawing' hperm
    apply sameValue_of_iff
    intro n
    have hconnects : m.ConnectsThose (fun edge => edge.isCompanionDependency = true)
        drawing'.dependencies ↔
        m.ConnectsThose (fun edge => edge.isCompanionDependency = true) drawing.dependencies := by
      simp only [ConnectsThose, hperm.mem_iff]
    rw [resolveDependencies_eq_ok_iff_becomes, resolveDependencies_eq_ok_iff_becomes, hconnects,
      takesCompanions_congr fun edge => (hperm.filter Node.isCompanionDependency).mem_iff]
  · intro drawing' hothers
    rw [result_resolveDependencies, result_resolveDependencies,
      m.readsEndsOf_dependencyEnds.filterMap_mapM_eq
        (fun _ => Node.HasOtherStereotype.not_isCompanionDependency) hothers]

/-- Realizations and dependencies take effect by their stereotypes: those of the two stages connect
entities and change what they say, and no others are looked at. -/
theorem realizesExactly_and_dependsExactly (drawing : Node) (m : Model) :
    m.RealizesExactly drawing ∧ m.DependsExactly drawing :=
  ⟨realizesExactly drawing m, dependsExactly drawing m⟩

/-! ### Orders that are dated -/

/-- An edge with a stereotype. -/
def stereotypedEdge (type id stereotype head tail : String) : Node :=
  (edgeBetween type id head tail).addChild (.named "stereotype" (.ofString stereotype))

/-- An order is dated, and what is dated is the companion of rush orders. -/
def datedEdges : List Node :=
  [stereotypedEdge "UML - Realizes" "O3" "<<mixin>>" "O2" "O1",
    stereotypedEdge "UML - Dependency" "O4" "companionOf" "O2" "O0"]

/-- Two edges that are attached to nothing. -/
def looseEdges : List Node :=
  [stereotypedEdge "UML - Realizes" "O5" "uses" "O8" "O9",
    stereotypedEdge "UML - Dependency" "O6" "calls" "O8" "O9"]

/-- The loose edges do not matter for orders, neither for their mixins nor for their companions. -/
theorem realizesExactly_and_dependsExactly_of_looseEdges :
    (orderClasses.resolveRealizations (edgeDrawing datedEdges)).result =
        (orderClasses.resolveRealizations (edgeDrawing (looseEdges ++ datedEdges))).result ∧
      (orderClasses.resolveRealizations (edgeDrawing datedEdges)).result.toOption.map
          (fun n => n.entities.map Entity.mixins) =
        some [[], [.user ⟨"Dated", ""⟩], []] ∧
      (orderClasses.resolveDependencies (edgeDrawing datedEdges)).result =
        (orderClasses.resolveDependencies (edgeDrawing (looseEdges ++ datedEdges))).result ∧
      (orderClasses.resolveDependencies (edgeDrawing datedEdges)).result.toOption.map
          (fun n => n.entities.map fun e => (e.kind, e.hasCompanion)) =
        some [(.cls, true), (.cls, false), (.object, false)] := by
  obtain ⟨hrealizes, hdepends⟩ :=
    realizesExactly_and_dependsExactly (edgeDrawing (looseEdges ++ datedEdges)) orderClasses
  exact ⟨hrealizes.of_others _ rfl, by decide +kernel, hdepends.of_others _ rfl, by decide +kernel⟩

end Model

end ClassDiagram
