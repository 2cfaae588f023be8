import ClassDiagram.Proofs.Edge.Order

/-!
# What is dropped from a drawing

A word that means nothing is dropped from the stereotypes of a class or of an attribute, and an edge
with such a word is dropped as a whole.  `Model.warningsOn` lists what a drawing has of these, and
the warnings on the way to its model are just those, in their order (`accounts_of_ofDrawing`).  An
edge without a warning takes effect: a realization adds one mixin, and a companion dependency makes
an object of one entity and marks the other.
-/

namespace ClassDiagram

open Text Stereotype

/-! ### Words that mean nothing -/

/-- The words that mean something on an attribute. -/
def attributeWords : List String := ["val", "var", "lazy"]

/-- The warning on an attribute of the entity named `owner`, if its stereotype means nothing. -/
def attributeWarning? (owner name : String) (stereotype : Option String) : Option Warning :=
  (stereotype.filter (· ∉ attributeWords)).map (.unknownAttributeStereotype owner name)

namespace Node

/-- The warning on the record of an attribute of the entity named `owner`. -/
def recordWarning? (owner : String) (record : Node) : Option Warning :=
  match record.string "name" with
  | .ok text =>
    attributeWarning? owner (splitMemberName text).name (splitMemberName text).stereotype
  | .error _ => none

/-- The warnings on a class object: those on its stereotypes, then those on its attributes. -/
def classWarnings (c : Node) : List Warning :=
  match c.string "name", c.optionalString "stereotype" with
  | .ok name, .ok stereotypes =>
    ((splitTokens (stereotypes.getD "")).filter (· ∉ classWords)).map
        (.unknownClassStereotype (trimmed name)) ++
      c.attributeRecords.filterMap (recordWarning? (trimmed name))
  | _, _ => []

/-- The warning on an edge whose stereotype is neither empty nor one of `words`. -/
def edgeWarning? (words : List String) (warning : String → String → Warning) (edge : Node) :
    Option Warning :=
  match edge.edgeStereotype with
  | .ok stereotype =>
    if stereotype = "" ∨ stereotype ∈ words then none
    else some (warning edge.describe stereotype)
  | .error _ => none

/-- The warning on a realization. -/
def realizationWarning? (edge : Node) : Option Warning :=
  edge.edgeWarning? ["mixin"] .unknownRealizationStereotype

/-- The warning on a dependency. -/
def dependencyWarning? (edge : Node) : Option Warning :=
  edge.edgeWarning? ["hasA", "companionOf"] .unknownDependencyStereotype

end Node

namespace Model

/-- The name of the entity at a handle of an edge. -/
def attachedName? (m : Model) (edge : Node) (handle : UInt64) : Option String :=
  match m.endpoint edge handle with
  | .ok i => m.entities[i]?.map Entity.name
  | .error _ => none

/-- The warning on an end of an association, if it adds an attribute whose stereotype means
nothing. -/
def endWarning? (m : Model) (p : Node × AssociationSide) : Option Warning :=
  match AssociationEnd.read p.1 p.2 with
  | .ok e =>
    if e.isNavigable then
      (m.attachedName? p.1 p.2.opposite.handle).bind fun owner =>
        attributeWarning? owner e.attributeName (splitMemberName e.role).stereotype
    else none
  | .error _ => none

/-- All that is dropped from a drawing on the way to the model `m`, in the order of the stages. -/
def warningsOn (drawing : Node) (m : Model) : List Warning :=
  (drawing.query "object" "UML - Class").flatMap Node.classWarnings ++
    (drawing.query "object" "UML - Realizes").filterMap Node.realizationWarning? ++
    (drawing.query "object" "UML - Dependency").filterMap Node.dependencyWarning? ++
    (associationEnds drawing).filterMap m.endWarning?

end Model

/-! ### Warnings on classes -/

theorem Stereotype.Binding.ofStereotype?_eq_none_iff {token : String} :
    Binding.ofStereotype? token = none ↔ token ∉ attributeWords := by
  unfold Binding.ofStereotype? attributeWords
  split_ifs <;> simp_all

theorem Stereotype.reports_bindMember (owner : String) (mutability : Option Mutability)
    (name : String) (stereotype : Option String) :
    (bindMember owner mutability name stereotype).Reports
      (attributeWarning? owner name stereotype).toList := by
  unfold bindMember attributeWarning?
  cases stereotype with
  | none => exact Traced.reports_ok _
  | some token =>
    dsimp only
    -- A stereotype that names a binding is accepted or refused, and all others are reported.
    cases hbinding : Binding.ofStereotype? token with
    | some binding =>
      have hword : token ∈ attributeWords := by
        by_contra hword
        rw [Binding.ofStereotype?_eq_none_iff.2 hword] at hbinding
        cases hbinding
      rw [Option.filter_some_neg (by simpa using hword)]
      dsimp only
      split
      · exact Traced.reports_fail _ _
      · exact Traced.reports_ok _
    | none =>
      have hword := Binding.ofStereotype?_eq_none_iff.1 hbinding
      rw [Option.filter_some_pos (by simpa using hword)]
      exact Traced.reports_warn_bind (Traced.reports_ok _)

theorem Attribute.reports_read (owner : String) (mutability : Option Mutability) (record : Node) :
    (Attribute.read owner mutability record).Reports (record.recordWarning? owner).toList := by
  refine Traced.reports_liftM_bind fun name hname => ?_
  rw [Node.recordWarning?, hname]
  -- Nothing that follows the binding is reported.
  refine Traced.reports_bind_nil (reports_bindMember _ _ _ _) fun flags => ?_
  refine Traced.reports_liftM_bind fun text _ => ?_
  refine Traced.reports_nil_bind (Traced.reports_ofExcept _) fun type _ => ?_
  refine Traced.reports_liftM_bind fun visibility _ => ?_
  refine Traced.reports_liftM_bind fun default _ => ?_
  exact Traced.reports_liftM_bind fun isClassScope _ => Traced.reports_ok _

/-- For one class, the warnings on its own stereotypes come before those on its records. -/
theorem Entity.reports_read (c : Node) : (Entity.read c).Reports c.classWarnings := by
  unfold Entity.read Node.classWarnings
  refine Traced.reports_liftM_bind fun id _ => ?_
  refine Traced.reports_liftM_bind fun name hname => ?_
  refine Traced.reports_liftM_bind fun geometry _ => ?_
  refine Traced.reports_liftM_bind fun text htext => ?_
  refine Traced.reports_nil_bind (Traced.reports_ofExcept _) fun s hs => ?_
  have hunknown : s.unknown = (splitTokens (text.getD "")).filter (· ∉ classWords) :=
    (ClassStereotypes.saidBy_of_read hs).1.unknown_eq
  rw [hname, htext]
  dsimp only
  rw [← hunknown]
  refine Traced.reports_warn_bind ?_
  refine Traced.reports_bind_nil
    (Traced.reports_mapM_filterMap fun record _ => Attribute.reports_read _ _ _) fun attributes => ?_
  refine Traced.reports_bind_nil ?_ fun operations => Traced.reports_ok _
  exact Traced.reports_mapM_nil (fun record => Traced.reports_ofExcept _) _

theorem Entity.reports_readAll (drawing : Node) :
    (Entity.readAll drawing).Reports
      ((drawing.query "object" "UML - Class").flatMap Node.classWarnings) :=
  Traced.reports_enter_bind (Traced.reports_mapM fun c _ => Entity.reports_read c)

theorem Package.reports_readAll (drawing : Node) : (Package.readAll drawing).Reports [] := by
  refine Traced.reports_enter_bind ?_
  exact Traced.reports_ofDrawing _

/-! ### Warnings on edges -/

namespace Model

theorem reports_entitiesOfDrawing (drawing : Node) (imports : ImportTable) :
    (entitiesOfDrawing drawing imports).Reports
      ((drawing.query "object" "UML - Class").flatMap Node.classWarnings) := by
  refine Traced.reports_nil_bind (Package.reports_readAll drawing) fun packages _ => ?_
  refine Traced.reports_bind_nil (Entity.reports_readAll drawing) fun entities => ?_
  refine Traced.reports_nil_bind (Traced.reports_enter_bind (Traced.reports_ok _)) fun m₁ _ => ?_
  refine Traced.reports_nil_bind (Traced.reports_enter_bind (Traced.reports_ok _)) fun m₂ _ => ?_
  exact Traced.reports_ofExcept _

theorem reports_realizationEnds (m : Model) (edge : Node) :
    (m.realizationEnds edge).Reports edge.realizationWarning?.toList := by
  unfold realizationEnds Node.realizationWarning? Node.edgeWarning?
  refine Traced.reports_liftM_bind fun stereotype hs => ?_
  rw [hs]
  simp only [List.mem_singleton]
  split_ifs
  · exact Traced.reports_nil_bind (Traced.reports_ofExcept _) fun ends _ => Traced.reports_ok _
  · exact Traced.reports_warn_bind (Traced.reports_ok _)

theorem reports_dependencyEnds (m : Model) (edge : Node) :
    (m.dependencyEnds edge).Reports edge.dependencyWarning?.toList := by
  unfold dependencyEnds Node.dependencyWarning? Node.edgeWarning?
  refine Traced.reports_liftM_bind fun stereotype hs => ?_
  rw [hs]
  by_cases hempty : stereotype = ""
  · simp only [hempty, true_or, if_true]
    exact Traced.reports_ok _
  · simp only [hempty, false_or, if_false, List.mem_cons, List.not_mem_nil, or_false]
    split_ifs
    · exact Traced.reports_nil_bind (Traced.reports_ofExcept _) fun ends _ => Traced.reports_ok _
    · exact Traced.reports_warn_bind (Traced.reports_ok _)

end Model

theorem AssociationEnd.reports_toAttribute (edge : Node) (e : AssociationEnd)
    (owner target : Entity) :
    (e.toAttribute edge owner target).Reports
      (attributeWarning? owner.name e.attributeName (splitMemberName e.role).stereotype).toList := by
  rw [toAttribute, attributeName]
  generalize splitRoleType (splitMemberName e.role).name = role
  obtain ⟨name, declared⟩ := role
  dsimp only
  split_ifs
  · exact Traced.reports_fail _ _
  · refine Traced.reports_bind_nil (reports_bindMember _ _ _ _) fun flags => ?_
    cases declared with
    | none => exact Traced.reports_ok _
    | some text =>
      exact Traced.reports_nil_bind (Traced.reports_ofExcept _) fun type _ => Traced.reports_ok _

namespace Model

variable {drawing edge : Node} {imports : ImportTable} {side : AssociationSide} {d m n : Model}
  {r : EdgeReading}

theorem reports_associationEndAddition {own opposite : Nat}
    (hown : m.endpoint edge side.handle = .ok own)
    (hopp : m.endpoint edge side.opposite.handle = .ok opposite) :
    (m.associationEndAddition edge side own opposite).Reports
      (m.endWarning? (edge, side)).toList := by
  have htarget := List.getElem?_eq_getElem (lt_length_of_endpoint hown)
  have howner := List.getElem?_eq_getElem (lt_length_of_endpoint hopp)
  unfold associationEndAddition endWarning? attachedName?
  refine Traced.reports_liftM_bind fun e he => ?_
  simp only [he, hopp, htarget, howner, Option.map_some, Option.bind_some]
  split_ifs
  · exact Traced.reports_bind_nil (AssociationEnd.reports_toAttribute _ _ _ _)
      fun a => Traced.reports_ok _
  · exact Traced.reports_ok _

theorem reports_associationAdditions (m : Model) (edge : Node) :
    (m.associationAdditions edge).Reports
      ((AssociationSide.all.map fun side => (edge, side)).filterMap m.endWarning?) := by
  have hsides : (AssociationSide.all.map fun side => (edge, side)).filterMap m.endWarning? =
      (m.endWarning? (edge, .a)).toList ++ (m.endWarning? (edge, .b)).toList := by
    simp [AssociationSide.all, List.filterMap_eq_flatMap_toList]
  rw [hsides]
  refine Traced.reports_nil_bind (Traced.reports_ofExcept _) fun ends hends => ?_
  obtain ⟨hsource, htarget⟩ := endpoints_eq_ok_iff.1 hends
  refine Traced.reports_bind (reports_associationEndAddition hsource htarget) fun first _ => ?_
  exact Traced.reports_bind_nil (reports_associationEndAddition htarget hsource)
    fun second => Traced.reports_ok _

theorem reports_resolveAssociations (drawing : Node) (m : Model) :
    (m.resolveAssociations drawing).Reports ((associationEnds drawing).filterMap m.endWarning?) := by
  rw [associationEnds, List.filterMap_flatMap]
  refine Traced.reports_enter_bind ?_
  exact Traced.reports_bind_nil
    (Traced.reports_mapM fun edge _ => reports_associationAdditions m edge)
    fun additions => Traced.reports_ok _

/-- Only ids and references matter for the warnings on ends. -/
theorem endWarning?_congr (hids : m.entities.map Entity.id = n.entities.map Entity.id)
    (hreferences : m.entities.map Entity.reference = n.entities.map Entity.reference) :
    m.endWarning? = n.endWarning? := by
  have hname : ∀ (es : List Entity) (i : Nat),
      es[i]?.map Entity.name = ((es.map Entity.reference)[i]?).map EntityRef.name := by
    intro es i
    rw [List.getElem?_map, Option.map_map]
    rfl
  funext p
  simp only [endWarning?, attachedName?, endpoint_congr hids, hname, hreferences]

theorem endWarning?_eq_of_resolve {s : EdgeStage} (h : (s.resolve drawing m).result = .ok n) :
    n.endWarning? = m.endWarning? := by
  obtain ⟨f, hf, rfl⟩ := EdgeStage.resolve_eq_ok_iff.1 h
  have hhead := hf.confines.keepsHead
  exact endWarning?_congr (map_entities_editEntities hhead.id_eq)
    (map_entities_editEntities hhead.reference_eq)

theorem reports_resolveGeneralizations (drawing : Node) (m : Model) :
    (m.resolveGeneralizations drawing).Reports [] := by
  refine Traced.reports_enter_bind ?_
  exact Traced.reports_nil_bind (Traced.reports_ofExcept _) fun ends _ => Traced.reports_ofExcept _

theorem reports_resolveRealizations (drawing : Node) (m : Model) :
    (m.resolveRealizations drawing).Reports
      ((drawing.query "object" "UML - Realizes").filterMap Node.realizationWarning?) := by
  refine Traced.reports_enter_bind ?_
  exact Traced.reports_bind_nil
    (Traced.reports_mapM_filterMap fun edge _ => reports_realizationEnds m edge)
    fun ends => Traced.reports_ok _

theorem reports_resolveDependencies (drawing : Node) (m : Model) :
    (m.resolveDependencies drawing).Reports
      ((drawing.query "object" "UML - Dependency").filterMap Node.dependencyWarning?) := by
  refine Traced.reports_enter_bind ?_
  exact Traced.reports_bind_nil
    (Traced.reports_mapM_filterMap fun edge _ => reports_dependencyEnds m edge)
    fun ends => Traced.reports_ok _

/-- Associations come last, but their warnings can be told before all edges. -/
theorem reports_resolveEdges (drawing : Node) (m : Model) :
    (m.resolveEdges drawing).Reports
      ((drawing.query "object" "UML - Realizes").filterMap Node.realizationWarning? ++
        ((drawing.query "object" "UML - Dependency").filterMap Node.dependencyWarning? ++
          (associationEnds drawing).filterMap m.endWarning?)) := by
  refine Traced.reports_nil_bind (reports_resolveGeneralizations drawing m) fun m₁ h₁ => ?_
  refine Traced.reports_bind (reports_resolveRealizations drawing m₁) fun m₂ h₂ => ?_
  refine Traced.reports_bind (reports_resolveDependencies drawing m₂) fun m₃ h₃ => ?_
  have hwarnings : m₃.endWarning? = m.endWarning? :=
    calc m₃.endWarning?
      _ = m₂.endWarning? := endWarning?_eq_of_resolve (s := .dependencies) h₃
      _ = m₁.endWarning? := endWarning?_eq_of_resolve (s := .realizations) h₂
      _ = m.endWarning? := endWarning?_eq_of_resolve (s := .generalizations) h₁
  rw [← hwarnings]
  exact reports_resolveAssociations drawing m₃

/-- All warnings come from the class objects and the edges. -/
theorem reports_ofDrawing (hd : (entitiesOfDrawing drawing imports).result = .ok d) :
    (ofDrawing drawing imports).Reports (d.warningsOn drawing) := by
  rw [warningsOn, List.append_assoc, List.append_assoc]
  refine Traced.reports_bind (reports_entitiesOfDrawing drawing imports) fun d' hd' => ?_
  obtain rfl : d = d' := Except.ok.inj (hd.symm.trans hd')
  refine Traced.reports_bind_nil (reports_resolveEdges drawing d) fun m₁ => ?_
  refine Traced.reports_nil_bind (Traced.reports_enter_bind (Traced.reports_ok _)) fun m₂ _ => ?_
  refine Traced.reports_nil_bind ?_ fun m₃ _ => ?_
  · refine Traced.reports_enter_bind ?_
    exact Traced.reports_ofExcept _
  · refine Traced.reports_enter_bind ?_
    exact Traced.reports_ofExcept _

/-! ### Edges without a warning -/

/-- The ends of a realization are read just when there is no warning on it. -/
theorem realizationEnds_eq_ok {edge : Node} {x : Option Endpoints}
    (h : (m.realizationEnds edge).result = .ok x) :
    if edge.realizationWarning? = none then ∃ ends, x = some ends ∧ m.reversedEndpoints edge = .ok ends
    else x = none := by
  obtain ⟨stereotype, hs, h⟩ := Traced.result_bind_eq_ok_iff.1 h
  rw [Traced.result_liftM_eq_ok_iff] at hs
  simp only [Node.realizationWarning?, Node.edgeWarning?, hs, List.mem_singleton]
  split at h
  · next hmixin =>
    obtain ⟨ends, hends, h⟩ := Traced.result_bind_eq_ok_iff.1 h
    cases h
    simpa [hmixin] using hends
  · next hdropped =>
    cases h
    simp [hdropped]

theorem Reads.forall₂_realizations (h : d.Reads drawing r) :
    List.Forall₂ (fun edge x => d.reversedEndpoints edge = .ok x)
      ((drawing.query "object" "UML - Realizes").filter fun edge => edge.realizationWarning? = none)
      r.realizations := by
  obtain ⟨ends, hends, hrealizations⟩ := h.realizations
  rw [hrealizations]
  refine forall₂_filter_filterMap hends ?_
  intro edge x hx
  simpa using realizationEnds_eq_ok hx

/-- A dependency with a stereotype is a companion dependency if there is no warning on it. -/
theorem mem_companionDependencies {stereotype : String}
    (hedge : edge ∈ drawing.query "object" "UML - Dependency")
    (hs : edge.edgeStereotype = .ok stereotype) (hstereotype : stereotype ≠ "")
    (hwarning : edge.dependencyWarning? = none) : edge ∈ drawing.companionDependencies := by
  refine List.mem_filter.2 ⟨hedge, ?_⟩
  rw [Node.isCompanionDependency, hs]
  simpa [Node.dependencyWarning?, Node.edgeWarning?, hs, hstereotype, or_iff_not_imp_left]
    using hwarning

namespace Completes

variable (h : d.Completes drawing r m)

include h

/-- An entity has one mixin for each realization from its position that is not dropped. -/
theorem forall₂_mixins (hd : (entitiesOfDrawing drawing imports).result = .ok d) {i : Nat}
    {e : Entity} (he : m.entities[i]? = some e) :
    List.Forall₂ (fun edge t => ∃ j p, m.endpoint edge 0 = .ok j ∧ m.entities[j]? = some p ∧
        t = .user p.reference)
      ((drawing.query "object" "UML - Realizes").filter fun edge =>
        m.endpoint edge 1 = .ok i ∧ edge.realizationWarning? = none) e.mixins := by
  simp only [Bool.decide_and]
  rw [← List.filter_filter, h.mixins_eq hd he, mixinsAt, List.filterMap_filter]
  refine forall₂_filter_filterMap h.reads.forall₂_realizations ?_
  intro edge x hx
  obtain ⟨hsource, htarget⟩ := reversedEndpoints_eq_ok_iff.1 hx
  rw [← h.endpoint_eq] at hsource htarget
  by_cases hi : x.source = i
  · have hlt : x.target < m.entities.length := lt_length_of_endpoint htarget
    have hp := List.getElem?_eq_getElem hlt
    simp [hsource, htarget, hi, typeAt?, hp]
  · simp [hsource, hi]

/-- A companion dependency makes an object of the entity at its handle 0 and marks the one at its
handle 1. -/
theorem exists_companion (hedge : edge ∈ drawing.companionDependencies) :
    ∃ i e j o, m.endpoint edge 0 = .ok i ∧ m.entities[i]? = some e ∧ e.kind = .object ∧
      m.endpoint edge 1 = .ok j ∧ m.entities[j]? = some o ∧ o.hasCompanion = true := by
  obtain ⟨x, hx, hends⟩ := exists_of_forall₂_right h.reads.forall₂_dependencies.flip hedge
  obtain ⟨hsource, htarget⟩ := endpoints_eq_ok_iff.1 hends
  obtain ⟨e, he, hfinished⟩ :=
    h.exists_finished (List.getElem?_eq_getElem (lt_length_of_endpoint hsource))
  obtain ⟨o, ho, hfinished'⟩ :=
    h.exists_finished (List.getElem?_eq_getElem (lt_length_of_endpoint htarget))
  rw [← h.endpoint_eq] at hsource htarget
  refine ⟨x.source, e, x.target, o, hsource, he, ?_, htarget, ho, ?_⟩
  · have hany : (r.dependencies.any fun y => y.source = x.source) = true :=
      List.any_eq_true.2 ⟨x, hx, by simp⟩
    rw [← hfinished.kind_eq]
    show (if _ then EntityKind.object else _) = _
    rw [if_pos hany]
  · exact (h.hasCompanion_iff hfinished').2 (.inr ⟨edge, hedge, htarget⟩)

end Completes

/-- The warnings `ws` account for what is missing from the model `m` of a drawing: they are the
warnings on the drawing, in order.  Of the realizations and the dependencies, all others take
effect, except that a dependency with an empty stereotype means nothing. -/
structure Accounts (drawing : Node) (ws : List Warning) (m : Model) : Prop where
  warnings_eq : ws = m.warningsOn drawing
  mixins : ∀ i e, m.entities[i]? = some e →
    List.Forall₂ (fun edge t => ∃ j p, m.endpoint edge 0 = .ok j ∧ m.entities[j]? = some p ∧
        t = .user p.reference)
      ((drawing.query "object" "UML - Realizes").filter fun edge =>
        m.endpoint edge 1 = .ok i ∧ edge.realizationWarning? = none) e.mixins
  realizations : ∀ edge ∈ drawing.query "object" "UML - Realizes",
    edge.realizationWarning? = none → ∃ i e, m.endpoint edge 1 = .ok i ∧ m.entities[i]? = some e
  dependencies : ∀ edge ∈ drawing.query "object" "UML - Dependency",
    edge.dependencyWarning? = none → edge.edgeStereotype = .ok "" ∨
      ∃ i e j o, m.endpoint edge 0 = .ok i ∧ m.entities[i]? = some e ∧ e.kind = .object ∧
        m.endpoint edge 1 = .ok j ∧ m.entities[j]? = some o ∧ o.hasCompanion = true

/-- Where a drawing becomes a model, its warnings come in the order in which it is read, and none of
its realizations and dependencies is passed over without one, but for dependencies that have no
stereotype. -/
theorem accounts_of_ofDrawing (h : (ofDrawing drawing imports).result = .ok m) :
    m.Accounts drawing (ofDrawing drawing imports).warnings := by
  obtain ⟨d, r, hd, hm, -⟩ := exists_completion_of_ofDrawing h
  refine ⟨?_, fun i e he => hm.forall₂_mixins hd he, ?_, ?_⟩
  · -- The warnings are the same on the drawn entities as on the finished ones.
    rw [reports_ofDrawing hd m h, warningsOn, warningsOn,
      endWarning?_congr hm.ids_eq hm.references_eq]
  · intro edge hedge hwarning
    have hkept : edge ∈ (drawing.query "object" "UML - Realizes").filter fun edge =>
        edge.realizationWarning? = none :=
      List.mem_filter.2 ⟨hedge, decide_eq_true hwarning⟩
    obtain ⟨x, -, hends⟩ := exists_of_forall₂_right hm.reads.forall₂_realizations.flip hkept
    have hsource := (reversedEndpoints_eq_ok_iff.1 hends).1
    rw [← hm.endpoint_eq] at hsource
    exact ⟨_, _, hsource, List.getElem?_eq_getElem (lt_length_of_endpoint hsource)⟩
  · intro edge hedge hwarning
    obtain ⟨ends, hends, -⟩ := hm.reads.dependencies
    obtain ⟨x, -, hx⟩ := exists_of_forall₂_right hends.flip hedge
    obtain ⟨stereotype, hs, -⟩ := Traced.result_bind_eq_ok_iff.1 hx
    rw [Traced.result_liftM_eq_ok_iff] at hs
    by_cases hempty : stereotype = ""
    · exact .inl (hempty ▸ hs)
    · exact .inr (hm.exists_companion (mem_companionDependencies hedge hs hempty hwarning))

/-! ### A drawing with words that mean nothing -/

/-- An element with a stereotype. -/
def stereotyped (n : Node) (stereotype : String) : Node :=
  n.addChild (.named "stereotype" (.ofString stereotype))

/-- Orders that are a trait and an entity, with a number that is a key and the instant at which they
were placed as another key.  Of the edges between the two, one realization and one dependency have a
stereotype that means nothing, and another of each has one that means something. -/
def keyedOrders : Node :=
  { Node.ofKind "diagram" with
    children := [
      (stereotyped (classObject "O0" "Order") "entity, «trait»; row").addChild
        (.namedRecords "attributes" [attributeRecord "<<key>> number" false]),
      classObject "O1" "Instant",
      { placement with
        children := .named "role_b" (.ofString "<<key>> placed") :: placement.children },
      stereotyped (edgeBetween "UML - Dependency" "O3" "O1" "O0") "uses",
      companionEdge "O4" "O1" "O0",
      edgeBetween "UML - Realizes" "O5" "O1" "O0",
      stereotyped (edgeBetween "UML - Realizes" "O6" "O0" "O1") "like"] }

theorem accounts_of_keyedOrders :
    ∃ m, (ofDrawing keyedOrders .empty).result = .ok m ∧
      m.Accounts keyedOrders (ofDrawing keyedOrders .empty).warnings ∧
      (ofDrawing keyedOrders .empty).warnings =
        [.unknownClassStereotype "Order" "entity", .unknownClassStereotype "Order" "row",
          .unknownAttributeStereotype "Order" "number" "key",
          .unknownRealizationStereotype "UML - Realizes 'O6'" "like",
          .unknownDependencyStereotype "UML - Dependency 'O3'" "uses",
          .unknownAttributeStereotype "Order" "placed" "key"] ∧
      m.entities.map (fun e => (e.kind, e.mixins, e.hasCompanion)) =
        [(.trait, [.user ⟨"Instant", ""⟩], true), (.object, [], false)] := by
  have hmodel : (ofDrawing keyedOrders .empty).result.toOption.map
      (fun m => m.entities.map fun e => (e.kind, e.mixins, e.hasCompanion)) =
      some [(.trait, [.user ⟨"Instant", ""⟩], true), (.object, [], false)] := by decide +kernel
  obtain ⟨m, hm, hentities⟩ := exists_eq_ok_of_toOption_map hmodel
  exact ⟨m, hm, accounts_of_ofDrawing hm, by decide +kernel, hentities⟩

end Model

end ClassDiagram
