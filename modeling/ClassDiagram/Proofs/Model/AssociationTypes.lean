import ClassDiagram.Drawing.Compose
import ClassDiagram.Proofs.Edge.Association
import ClassDiagram.Proofs.Model.Qualified

/-!
# Types of association attributes

Where the role of an end declares no type, the attribute that the end adds is made to hold the
entity drawn at the end.  References are qualified by name later on, so that the attribute keeps to
that entity if the entity is in a package; one that is in none may be taken for another entity of
its name, or for a class of the import table (`exists_attribute_of_end`).
-/

namespace ClassDiagram

theorem TypeExpr.leaves_ofMultiplicity (multiplicity : String) (t : TypeExpr) :
    (TypeExpr.ofMultiplicity multiplicity t).leaves = t.leaves := by
  unfold ofMultiplicity
  dsimp only
  split
  · simp [optionOf, leaves, leavesList]
  · split
    · simp [seqOf, leaves, leavesList]
    · rfl

namespace Model

variable {drawing edge : Node} {imports : ImportTable} {side : AssociationSide} {m n : Model}

theorem imports_of_ofDrawing (h : (ofDrawing drawing imports).result = .ok m) :
    m.imports = imports := by
  obtain ⟨m₀, m₁, h₀, hedges, hmark, -⟩ := ofDrawing_eq_ok_iff.1 h
  obtain ⟨m₂, m₃, m₄, h₂, h₃, h₄, h₁⟩ := resolveEdges_eq_ok_iff.1 hedges
  have hframe := (((sameFrame_of_resolveGeneralizations h₂).trans
    (sameFrame_of_resolveRealizations h₃)).trans (sameFrame_of_resolveDependencies h₄)).trans
    (sameFrame_of_resolveAssociations h₁)
  rw [(sameFrame_of_markOverrides hmark).imports_eq]
  exact hframe.imports_eq.trans (imports_of_entitiesOfDrawing h₀)

/-- Behind the stage that reads associations, an entity has the attributes of the ends that add to
it at the end of its attributes, finished with the others. -/
theorem exists_additions (h : (ofDrawing drawing imports).result = .ok m) :
    ∃ (k : Model) (additions : List (Option AttributeAddition)),
      k.entities.map Entity.id = m.entities.map Entity.id ∧
      List.Forall₂ k.Adds (associationEnds drawing) additions ∧
      ∀ (i : Nat) (e : Entity), k.entities[i]? = some e → ∃ e', m.entities[i]? = some e' ∧
        m.Finished (e.addAttributes (additionsTo i (additions.flatMap Option.toList))) e' := by
  obtain ⟨m₀, m₁, -, hedges, hmark, -⟩ := ofDrawing_eq_ok_iff.1 h
  obtain ⟨-, -, k, -, -, -, hk⟩ := resolveEdges_eq_ok_iff.1 hedges
  obtain ⟨additions, hadds, rfl⟩ := resolveAssociations_eq_ok_iff.1 hk
  have hfinished := forall₂_finished hmark
  refine ⟨k, additions, ?_, hadds, ?_⟩
  · rw [← map_eq_of_forall₂ hfinished fun _ _ he => he.id_eq]
    exact (map_entities_addAttributes (fun _ _ => rfl) k _).symm
  · intro i e he
    refine exists_getElem?_of_forall₂ hfinished ?_
    rw [getElem?_addAttributes, he]
    rfl

/-- What a navigable end without a declared type adds when the associations are read. -/
theorem Adds.exists_attribute {addition : Option AttributeAddition}
    (h : m.Adds (edge, side) addition) {e : AssociationEnd}
    (he : AssociationEnd.read edge side = .ok e) (hnav : e.isNavigable = true)
    (hd : e.declaredType? = none) :
    ∃ own opposite owner target a, m.endpoint edge side.handle = .ok own ∧
      m.endpoint edge side.opposite.handle = .ok opposite ∧ m.entities[opposite]? = some owner ∧
      m.entities[own]? = some target ∧ addition = some ⟨opposite, a⟩ ∧ a.name = e.attributeName ∧
      a.type = some (TypeExpr.ofMultiplicity e.multiplicity (.user target.reference)) := by
  obtain ⟨e', own, opposite, owner, target, he', hown, hopp, howner, htarget, hadd⟩ :=
    h.exists_entities
  obtain rfl : e' = e := by simpa [he] using he'.symm
  rw [if_pos hnav] at hadd
  obtain ⟨a, ha, rfl⟩ := hadd
  obtain ⟨-, flags, type, -, htype, heq⟩ := AssociationEnd.toAttribute_eq_ok_iff.1 ha
  rw [AssociationEnd.attributeType, hd] at htype
  refine ⟨own, opposite, owner, target, a, hown, hopp, howner, htarget, rfl, ?_, ?_⟩
  · rw [heq]
  · rw [heq, Except.ok.inj htype]

/-- In the model, `a` is the attribute of `owner` that an end adds, if `target` stands at the end
and `later` are the ends that are read after it: behind `a` stand the attributes of those of them
that add to `owner`. -/
structure AttributeOfEnd (m : Model) (edge : Node) (side : AssociationSide) (e : AssociationEnd)
    (later : List (Node × AssociationSide)) (owner target : Entity) (a : Attribute) : Prop where
  target_eq : ∃ own, m.endpoint edge side.handle = .ok own ∧ m.entities[own]? = some target
  owner_eq : ∃ opposite, m.endpoint edge side.opposite.handle = .ok opposite ∧
    m.entities[opposite]? = some owner ∧ ∃ front back, owner.attributes = front ++ a :: back ∧
      back.length = later.countP (m.isOwner opposite)
  name_eq : a.name = e.attributeName

/-- A navigable end without a declared type adds one attribute to the entity at the opposite end, in
the order of the ends.  In the finished model, the type of that attribute has a single reference: it
bears the name of the entity at the end, and its package, if that entity is in one.  Otherwise the
reference goes to the package of the first entity of the name, or else to that of the import
table. -/
theorem exists_attribute_of_end (h : (ofDrawing drawing imports).result = .ok m)
    {e : AssociationEnd} {before after : List (Node × AssociationSide)}
    (hends : associationEnds drawing = before ++ (edge, side) :: after)
    (he : AssociationEnd.read edge side = .ok e) (hnav : e.isNavigable = true)
    (hd : e.declaredType? = none) :
    ∃ owner target a t leaf, m.AttributeOfEnd edge side e after owner target a ∧
      a.type = some t ∧ t.leaves = [leaf] ∧ leaf.name = target.name ∧ m.imports = imports ∧
      leaf.package =
        if target.package ≠ "" then target.package else m.packageFor target.name := by
  obtain ⟨k, additions, hids, hadds, hfinished⟩ := exists_additions h
  rw [hends] at hadds
  obtain ⟨before', addition, after', rfl, -, hadd, hafter⟩ := exists_eq_append_of_forall₂ hadds
  obtain ⟨own, opposite, owner, target, a, hown, hopp, howner, htarget, rfl, hname, htype⟩ :=
    hadd.exists_attribute he hnav hd
  -- The finished entities stand at the positions that the edge connects.
  obtain ⟨owner', howner', hfinish⟩ := hfinished opposite owner howner
  obtain ⟨target', htarget', hfinish'⟩ := hfinished own target htarget
  have hreference : target.reference = target'.reference := hfinish'.reference_eq
  rw [endpoint_congr hids] at hown hopp
  -- The attributes of the later ends stand behind the attribute of this one.
  obtain ⟨f, hattributes, hf⟩ := hfinish.attributes
  have hsplit : additionsTo opposite
      ((before' ++ some ⟨opposite, a⟩ :: after').flatMap Option.toList) =
        additionsTo opposite (before'.flatMap Option.toList) ++
          a :: additionsTo opposite (after'.flatMap Option.toList) := by
    simp [additionsTo, List.flatMap_append]
  rw [hsplit, Entity.addAttributes, ← List.append_assoc, List.map_append, List.map_cons]
    at hattributes
  have hback : ((additionsTo opposite (after'.flatMap Option.toList)).map f).length =
      after.countP (m.isOwner opposite) := by
    rw [List.length_map, length_additionsTo_of_forall₂ hafter, isOwner_congr hids]
  obtain ⟨hfname, hftype⟩ := hf a
  rw [htype, Option.map_some] at hftype
  refine ⟨owner', target', f a, _, m.qualified target.reference, ⟨⟨own, hown, htarget'⟩,
    ⟨opposite, hopp, howner', _, _, hattributes, hback⟩, hfname.trans hname⟩, hftype, ?_, ?_,
    imports_of_ofDrawing h, ?_⟩
  · rw [TypeExpr.leaves_mapLeaves, TypeExpr.leaves_ofMultiplicity]
    rfl
  · rw [name_qualified, hreference]
    rfl
  · rw [package_qualified, hreference]
    rfl

/-! ### A drawing without packages -/

/-- A class without members. -/
def classObject (id name : String) : Node :=
  { Node.object "UML - Class" id with
    children := [
      .named "name" (.ofString name),
      .named "elem_corner" (.ofValue .point "0,0"),
      .named "elem_width" (.ofValue .real "2"),
      .named "elem_height" (.ofValue .real "2")] }

/-- An association that gives the attribute `placed` to the object `O0`, for the object `O1`. -/
def placement : Node :=
  { Node.object "UML - Association" "O2" with
    children := [
      .named "role_a" (.ofString ""),
      .named "multipicity_a" (.ofString ""),
      .named "visibility_a" (.ofCode 0),
      .named "show_arrow_a" (.ofBool false),
      .named "role_b" (.ofString "placed"),
      .named "multipicity_b" (.ofString ""),
      .named "visibility_b" (.ofCode 0),
      .named "show_arrow_b" (.ofBool false),
      .ofConnections [⟨0, "O0"⟩, ⟨1, "O1"⟩]] }

/-- An order with the instant at which it was placed. -/
def orderDrawing : Node :=
  { Node.ofKind "diagram" with
    children := [classObject "O0" "Order", classObject "O1" "Instant", placement] }

theorem exists_attribute_of_placement :
    ∃ m, (ofDrawing orderDrawing (.ofText "java.time.Instant")).result = .ok m ∧
      associationEnds orderDrawing = [(placement, .a)] ++ (placement, .b) :: [] ∧
      AssociationEnd.read placement .b = .ok ⟨"placed", "", .pub, false⟩ ∧
      ∃ owner target a t leaf,
        m.AttributeOfEnd placement .b ⟨"placed", "", .pub, false⟩ [] owner target a ∧
        a.type = some t ∧ t.leaves = [leaf] ∧ leaf.name = target.name ∧
        m.imports = .ofText "java.time.Instant" ∧
        leaf.package =
          if target.package ≠ "" then target.package else m.packageFor target.name := by
  have hok : (ofDrawing orderDrawing (.ofText "java.time.Instant")).result.isOk = true := by
    decide +kernel
  have hends : associationEnds orderDrawing = [(placement, .a)] ++ (placement, .b) :: [] := rfl
  have he : AssociationEnd.read placement .b = .ok ⟨"placed", "", .pub, false⟩ := by
    decide +kernel
  cases h : (ofDrawing orderDrawing (.ofText "java.time.Instant")).result with
  | error e =>
    rw [h] at hok
    exact Bool.noConfusion hok
  | ok m => exact ⟨m, rfl, hends, he, exists_attribute_of_end h hends he (by decide) (by decide)⟩

/-- The attribute of the order, with a type that the import table has found a package for. -/
def placed : Attribute where
  name := "placed"
  type := some (.user ⟨"Instant", "java.time"⟩)
  visibility := .pub
  isVal := true
  default := none
  isLazy := false
  isOverriding := false
  isClassScope := false

/-- The instant of an order is drawn in no package, but the type of its attribute is taken for a
class of the import table. -/
theorem type_of_placement :
    ∃ m owner target, (ofDrawing orderDrawing (.ofText "java.time.Instant")).result = .ok m ∧
      associationEnds orderDrawing = [(placement, .a)] ++ (placement, .b) :: [] ∧
      AssociationEnd.read placement .b = .ok ⟨"placed", "", .pub, false⟩ ∧
      AssociationEnd.isNavigable ⟨"placed", "", .pub, false⟩ = true ∧
      AssociationEnd.declaredType? ⟨"placed", "", .pub, false⟩ = none ∧
      m.AttributeOfEnd placement .b ⟨"placed", "", .pub, false⟩ [] owner target placed ∧
      target.reference = ⟨"Instant", ""⟩ ∧
      placed.type.map TypeExpr.leaves = some [⟨"Instant", "java.time"⟩] := by
  have hmodel : (ofDrawing orderDrawing (.ofText "java.time.Instant")).result.toOption.map
      (fun m => (m.endpoint placement 1, m.endpoint placement 0,
        m.entities.map fun e => (e.reference, e.attributes))) =
      some (.ok 1, .ok 0, [(⟨"Order", ""⟩, [placed]), (⟨"Instant", ""⟩, [])]) := by
    decide +kernel
  -- What the statement needs of the model is evaluated at once, then taken apart.
  cases h : (ofDrawing orderDrawing (.ofText "java.time.Instant")).result with
  | error e => simp [h, Except.toOption] at hmodel
  | ok m =>
    rw [h, Except.toOption, Option.map_some, Option.some.injEq, Prod.mk.injEq,
      Prod.mk.injEq] at hmodel
    obtain ⟨htarget, howner, hentities⟩ := hmodel
    obtain ⟨owner, es, hes, hown, hentities⟩ := List.map_eq_cons_iff.1 hentities
    obtain ⟨target, es', rfl, hreference, -⟩ := List.map_eq_cons_iff.1 hentities
    have hattributes : owner.attributes = [placed] := (Prod.mk.inj hown).2
    refine ⟨m, owner, target, rfl, rfl, by decide +kernel, by decide, by decide, ?_,
      (Prod.mk.inj hreference).1, rfl⟩
    exact ⟨⟨1, htarget, by rw [hes]; rfl⟩,
      ⟨0, howner, by rw [hes]; rfl, [], [], hattributes, rfl⟩, by decide⟩

end Model

end ClassDiagram
