import ClassDiagram.Proofs.Edge.Attachment
import ClassDiagram.Proofs.Model.Hierarchy
import ClassDiagram.Proofs.Model.Members

/-!
# Objects and companions

An entity of a model is an object because its class object says so, because it is the companion that
has been made of a class object, or because a companion dependency starts from it
(`Completes.kind_eq_object_iff`).  These objects come about one after the other: a companion is made
only where no drawn object has its reference (`objects_beside_companion`), and a class is marked for
the drawn objects of its reference, for its own companion and for the dependencies that lead to it
(`hasCompanion_of_origin`).
-/

namespace ClassDiagram

/-! ### Companion dependencies -/

/-- The dependency makes the entity at its handle 0 a companion of the one at its handle 1. -/
def Node.isCompanionDependency (edge : Node) : Bool :=
  match edge.edgeStereotype with
  | .ok stereotype => stereotype = "hasA" ∨ stereotype = "companionOf"
  | .error _ => false

theorem Node.isCompanionDependency_iff {edge : Node} : edge.isCompanionDependency = true ↔
    edge.edgeStereotype = .ok "hasA" ∨ edge.edgeStereotype = .ok "companionOf" := by
  unfold isCompanionDependency
  cases edge.edgeStereotype <;> simp

/-- The companion dependencies of a drawing. -/
def Node.companionDependencies (drawing : Node) : List Node :=
  (drawing.query "object" "UML - Dependency").filter Node.isCompanionDependency

namespace Model

variable {drawing : Node} {imports : ImportTable} {d m : Model} {r : EdgeReading}

/-- A companion dependency of the drawing is attached with a handle to the entity at a position. -/
def HasCompanionEnd (drawing : Node) (m : Model) (handle : UInt64) (i : Nat) : Prop :=
  ∃ edge ∈ drawing.companionDependencies, m.endpoint edge handle = .ok i

/-- The ends of a dependency are read just when it is a companion dependency. -/
theorem readsEndsOf_dependencyEnds (m : Model) :
    ReadsEndsOf (fun edge => edge.isCompanionDependency = true) m.endpoints
      fun edge => (m.dependencyEnds edge).result := by
  intro edge x
  unfold dependencyEnds
  rw [Traced.result_bind_eq_ok_iff, ← exists_and_right]
  refine exists_congr fun s => ?_
  rw [Traced.result_liftM_eq_ok_iff]
  refine and_congr_right fun hs => ?_
  simp only [Node.isCompanionDependency_iff, hs, Except.ok.injEq]
  by_cases hempty : s = ""
  · subst hempty
    simp [eq_comm (a := x)]
  · rw [if_neg hempty]
    split
    · simp [Traced.result_bind_eq_ok_iff, eq_comm (a := x)]
    · show Except.ok none = Except.ok x ↔ x = none
      rw [Except.ok.injEq, eq_comm]

/-- The dependencies that have been read are the companion dependencies. -/
theorem forall₂_companionDependencies {xs : List (Option Endpoints)}
    (hxs : List.Forall₂ (fun edge x => (m.dependencyEnds edge).result = .ok x)
      (drawing.query "object" "UML - Dependency") xs) :
    List.Forall₂ (fun edge x => m.endpoints edge = .ok x) drawing.companionDependencies
      (xs.filterMap id) := by
  simpa [Node.companionDependencies] using m.readsEndsOf_dependencyEnds.forall₂_filter hxs

theorem Reads.forall₂_dependencies (h : d.Reads drawing r) :
    List.Forall₂ (fun edge x => d.endpoints edge = .ok x) drawing.companionDependencies
      r.dependencies := by
  obtain ⟨xs, hxs, hdependencies⟩ := h.dependencies
  rw [hdependencies]
  exact forall₂_companionDependencies hxs

section

variable {ends : List Endpoints}
  (h : List.Forall₂ (fun edge x => m.endpoints edge = .ok x) drawing.companionDependencies ends)

include h

theorem any_source_iff {i : Nat} :
    (ends.any fun x => x.source = i) = true ↔ m.HasCompanionEnd drawing 0 i := by
  rw [List.any_eq_true, HasCompanionEnd]
  symm
  apply exists_mem_iff_of_forall₂ h
  intro edge x hx
  rw [(endpoints_eq_ok_iff.1 hx).1]
  simp

theorem any_target_iff {i : Nat} :
    (ends.any fun x => x.target = i) = true ↔ m.HasCompanionEnd drawing 1 i := by
  rw [List.any_eq_true, HasCompanionEnd]
  symm
  apply exists_mem_iff_of_forall₂ h
  intro edge x hx
  rw [(endpoints_eq_ok_iff.1 hx).2]
  simp

end

/-! ### Kinds and marks in the model -/

end Model

/-- A part of an entity is an object if it is the companion, or if the entity is one. -/
theorem Entity.kind_of_eq_object_iff {c : Node} {e : Entity} (h : e.ReadFrom c) (part : Part) :
    (part.of e).kind = .object ↔ part = .companion ∨ c.drawsObject = true := by
  have hdrawn : e.kind = .object ↔ c.drawsObject = true := by
    rw [← h.isObject_eq, isObject, decide_eq_true_eq]
  cases part with
  | companion => simp [Part.of, companion]
  | whole | instances => simp [Part.of, instancePart, hdrawn]

/-- A companion is made of an entity just when the entity has to give members to one. -/
theorem Entity.ReadFrom.needsCompanion_iff {c : Node} {e : Entity} (h : e.ReadFrom c) :
    e.needsCompanion = true ↔ .companion ∈ c.parts := by
  rw [needsCompanion, h.isObject_eq, h.hasClassScope_eq, Node.parts]
  split
  · next hneeds => exact iff_of_true hneeds (by decide)
  · next hneeds => exact iff_of_false hneeds (by decide)

namespace Model

variable {drawing : Node} {imports : ImportTable} {d m : Model} {r : EdgeReading}

/-- A companion is made of a class object only if none with the same reference draws an object. -/
theorem Spells.drawsObject_eq_false {es : List Entity} (h : Spells drawing es d) {b c : Node}
    {v w : Entity} (hv : v ∈ es) (hb : v.ReadFrom b) (hw : w ∈ es) (hc : w.ReadFrom c)
    (hreference : w.reference = v.reference) (hcompanion : .companion ∈ b.parts) :
    c.drawsObject = false := by
  have hfree := h.free v hv (hb.needsCompanion_iff.2 hcompanion)
  rw [← hc.isObject_eq]
  by_contra hobject
  rw [Bool.not_eq_false] at hobject
  rw [hasObject_eq_true_iff.2 ⟨w, hw, hobject, hreference⟩] at hfree
  cases hfree

namespace Completes

variable (h : d.Completes drawing r m)

include h

theorem hasCompanionEnd_iff {handle : UInt64} {i : Nat} :
    m.HasCompanionEnd drawing handle i ↔ d.HasCompanionEnd drawing handle i := by
  simp only [HasCompanionEnd, h.endpoint_eq]

/-- What stands at the place of a part of a class object has been read from the object. -/
theorem exists_read {es : List Entity} (hes : Spells drawing es d) {i : Nat} {c : Node}
    {part : Part} {e : Entity} (hi : (entityPlaces drawing)[i]? = some (c, part))
    (he : m.entities[i]? = some e) :
    part ∈ c.parts ∧ ∃ w ∈ es, w.ReadFrom c ∧ m.Finished (r.applyAt d.typeAt? i (part.of w)) e := by
  obtain ⟨hpart, w, hw, hread, he₀⟩ := hes.exists_entity hi
  obtain ⟨e', he', hfinished⟩ := h.exists_finished he₀
  obtain rfl : e = e' := Option.some.inj (he.symm.trans he')
  exact ⟨hpart, w, hw, hread, hfinished⟩

theorem kind_eq_object_iff {i : Nat} {c : Node} {part : Part} {w e : Entity} (hw : w.ReadFrom c)
    (he : m.Finished (r.applyAt d.typeAt? i (part.of w)) e) :
    e.kind = .object ↔
      part = .companion ∨ c.drawsObject = true ∨ m.HasCompanionEnd drawing 0 i := by
  rw [h.hasCompanionEnd_iff, ← any_source_iff h.reads.forall₂_dependencies, ← or_assoc,
    ← Entity.kind_of_eq_object_iff hw, ← he.kind_eq]
  show (if _ then EntityKind.object else (part.of w).kind) = _ ↔ _
  split
  · next hsource => simp [hsource]
  · next hsource => simp [hsource]

theorem hasCompanion_iff {i : Nat} {w e : Entity}
    (he : m.Finished (r.applyAt d.typeAt? i w) e) :
    e.hasCompanion = true ↔ w.hasCompanion = true ∨ m.HasCompanionEnd drawing 1 i := by
  rw [h.hasCompanionEnd_iff, ← any_target_iff h.reads.forall₂_dependencies, ← he.hasCompanion_eq, ← Bool.or_eq_true]
  rfl

omit h in
/-- No edge makes a class of anything else. -/
theorem kind_eq_cls {i : Nat} {w e : Entity} (he : m.Finished (r.applyAt d.typeAt? i w) e)
    (hkind : e.kind = .cls) : w.kind = .cls := by
  rw [← he.kind_eq] at hkind
  have hkind : (if _ then EntityKind.object else w.kind) = .cls := hkind
  split at hkind
  · cases hkind
  · exact hkind

end Completes

/-! ### Objects beside a companion -/

/-- A companion that has been made of a class object is an object.  Of the other entities with its
reference none is drawn as an object, and those of them that are objects are companions themselves
or stand at the beginning of a companion dependency. -/
theorem objects_beside_companion (h : (ofDrawing drawing imports).result = .ok m) {i : Nat}
    {c : Node} (hi : (entityPlaces drawing)[i]? = some (c, .companion)) :
    ∃ s, m.entities[i]? = some s ∧ s.kind = .object ∧
      ∀ j c' part e, (entityPlaces drawing)[j]? = some (c', part) → m.entities[j]? = some e →
        e.reference = s.reference → c'.drawsObject = false ∧
          (e.kind = .object ↔ part = .companion ∨ m.HasCompanionEnd drawing 0 j) := by
  obtain ⟨d, r, hd, hm, -⟩ := exists_completion_of_ofDrawing h
  obtain ⟨es, hes⟩ := exists_spells_of_entitiesOfDrawing hd
  obtain ⟨s, hs, -⟩ := hm.exists_isPart hd hi
  obtain ⟨hpart, w, hw, hread, hfinished⟩ := hm.exists_read hes hi hs
  refine ⟨s, hs, (hm.kind_eq_object_iff hread hfinished).2 (.inl rfl), ?_⟩
  intro j c' part e hj he hreference
  obtain ⟨-, w', hw', hread', hfinished'⟩ := hm.exists_read hes hj he
  rw [hfinished'.reference_eq_of_part, hfinished.reference_eq_of_part] at hreference
  have hdrawn := hes.drawsObject_eq_false hw hread hw' hread' hreference hpart
  rw [hm.kind_eq_object_iff hread' hfinished', hdrawn]
  simp

/-- A class object that has a member of the class itself. -/
def countedClass (id name : String) : Node :=
  (classObject id name).addChild (.namedRecords "attributes" [attributeRecord "count" true])

/-- A dependency that makes one entity the companion of another. -/
def companionEdge (id companion owner : String) : Node :=
  (edgeBetween "UML - Dependency" id companion owner).addChild
    (.named "stereotype" (.ofString "companionOf"))

/-- A counter that counts itself, and another class of its name that a dependency makes its
companion. -/
def counterDrawing : Node :=
  { Node.ofKind "diagram" with
    children := [
      countedClass "O0" "Counter", classObject "O1" "Counter", companionEdge "O2" "O1" "O0"] }

theorem entityPlaces_counterDrawing :
    entityPlaces counterDrawing =
      [(countedClass "O0" "Counter", .instances), (countedClass "O0" "Counter", .companion),
        (classObject "O1" "Counter", .whole)] := by
  have hclasses : counterDrawing.query "object" "UML - Class" =
      [countedClass "O0" "Counter", classObject "O1" "Counter"] := rfl
  have hsplit : (countedClass "O0" "Counter").parts = [.instances, .companion] := by
    decide +kernel
  have hwhole : (classObject "O1" "Counter").parts = [.whole] := by decide +kernel
  simp [entityPlaces, hclasses, hsplit, hwhole]

theorem objects_beside_counter :
    ∃ m s, (ofDrawing counterDrawing .empty).result = .ok m ∧
      (entityPlaces counterDrawing)[1]? = some (countedClass "O0" "Counter", .companion) ∧
      m.entities[1]? = some s ∧ s.kind = .object ∧
      ∀ j c' part e, (entityPlaces counterDrawing)[j]? = some (c', part) →
        m.entities[j]? = some e → e.reference = s.reference → c'.drawsObject = false ∧
          (e.kind = .object ↔ part = .companion ∨ m.HasCompanionEnd counterDrawing 0 j) := by
  have hok : (ofDrawing counterDrawing .empty).result.toOption.map (fun _ => ()) = some () := by
    decide +kernel
  have hplace : (entityPlaces counterDrawing)[1]? =
      some (countedClass "O0" "Counter", .companion) := by
    rw [entityPlaces_counterDrawing]
    rfl
  obtain ⟨m, hm, -⟩ := exists_eq_ok_of_toOption_map hok
  obtain ⟨s, hs⟩ := objects_beside_companion hm hplace
  exact ⟨m, s, hm, hplace, hs⟩

/-- The companion that has been made of the counter is not the only object of its reference: the
dependency makes another one. -/
theorem second_object_of_counter :
    ∃ m s e, (ofDrawing counterDrawing .empty).result = .ok m ∧
      (entityPlaces counterDrawing)[1]? = some (countedClass "O0" "Counter", .companion) ∧
      m.entities[1]? = some s ∧ m.entities[2]? = some e ∧ s.kind = .object ∧ e.kind = .object ∧
      e.reference = s.reference := by
  have hmodel : (ofDrawing counterDrawing .empty).result.toOption.map
      (fun m => m.entities.map fun e => (e.kind, e.reference)) =
      some [(.cls, ⟨"Counter", ""⟩), (.object, ⟨"Counter", ""⟩), (.object, ⟨"Counter", ""⟩)] := by
    decide +kernel
  obtain ⟨m, hm, hentities⟩ := exists_eq_ok_of_toOption_map hmodel
  obtain ⟨s, hs, hsecond⟩ := exists_getElem?_of_map_eq hentities (i := 1) rfl
  obtain ⟨e, he, hthird⟩ := exists_getElem?_of_map_eq hentities (i := 2) rfl
  obtain ⟨hskind, hsreference⟩ := Prod.mk.inj hsecond
  obtain ⟨hekind, hereference⟩ := Prod.mk.inj hthird
  refine ⟨m, s, e, hm, ?_, hs, he, hskind, hekind, hereference.trans hsreference.symm⟩
  rw [entityPlaces_counterDrawing]
  rfl

/-! ### Classes with companions -/

/-- An entity has a companion: an object of the same reference is drawn, or members of the entity
have moved to a companion of its own, or a companion dependency leads to it. -/
inductive CompanionOrigin (drawing : Node) (m : Model) (i : Nat) (e : Entity) : Prop
  | drawn {j : Nat} {c : Node} {part : Part} {o : Entity}
    (hj : (entityPlaces drawing)[j]? = some (c, part)) (ho : m.entities[j]? = some o)
    (hobject : c.drawsObject = true) (hreference : o.reference = e.reference)
  | made {c : Node} (hi : (entityPlaces drawing)[i]? = some (c, .instances))
  | declared (hi : m.HasCompanionEnd drawing 1 i)

/-- A class of a model is marked if it has come to a companion in one of these ways. -/
theorem hasCompanion_of_origin (h : (ofDrawing drawing imports).result = .ok m) {i : Nat}
    {e : Entity} (he : m.entities[i]? = some e) (hkind : e.kind = .cls)
    (horigin : m.CompanionOrigin drawing i e) : e.hasCompanion = true := by
  obtain ⟨d, r, hd, hm, -⟩ := exists_completion_of_ofDrawing h
  obtain ⟨es, hes⟩ := exists_spells_of_entitiesOfDrawing hd
  obtain ⟨e₀, he₀, -⟩ := hm.exists_drawn he
  obtain ⟨c, part, hi⟩ := hes.exists_place he₀
  obtain ⟨-, w, hw, hread, hfinished⟩ := hm.exists_read hes hi he
  rw [hm.hasCompanion_iff hfinished]
  cases horigin with
  | declared hi => exact .inr hi
  | made hi' =>
    obtain ⟨-, rfl⟩ : c = _ ∧ part = .instances := by simpa [hi] using hi'
    exact .inl rfl
  | drawn hj ho hobject hreference =>
    obtain ⟨-, w', hw', hread', hfinished'⟩ := hm.exists_read hes hj ho
    rw [hfinished.reference_eq_of_part, hfinished'.reference_eq_of_part] at hreference
    have hdrawn : hasObject es w.reference = true := by
      refine hasObject_eq_true_iff.2 ⟨w', hw', ?_, hreference⟩
      rw [hread'.isObject_eq, hobject]
    have hcls := Completes.kind_eq_cls hfinished hkind
    -- The class has been marked when it was read, and it keeps its mark if it is split.
    cases part with
    | whole => exact .inl (hes.marked w hw hcls hdrawn)
    | instances => exact .inl rfl
    | companion => cases hcls

/-- A class object that draws an object. -/
def singletonObject (id name : String) : Node :=
  (classObject id name).addChild (.named "stereotype" (.ofString "object"))

/-- A registry and the object of its name. -/
def registryDrawing : Node :=
  { Node.ofKind "diagram" with
    children := [classObject "O0" "Registry", singletonObject "O1" "Registry"] }

theorem hasCompanion_of_registry :
    ∃ m e, (ofDrawing registryDrawing .empty).result = .ok m ∧ m.entities[0]? = some e ∧
      e.kind = .cls ∧ m.CompanionOrigin registryDrawing 0 e ∧ e.hasCompanion = true := by
  have hmodel : (ofDrawing registryDrawing .empty).result.toOption.map
      (fun m => m.entities.map fun e => (e.kind, e.reference)) =
      some [(.cls, ⟨"Registry", ""⟩), (.object, ⟨"Registry", ""⟩)] := by decide +kernel
  have hclasses : registryDrawing.query "object" "UML - Class" =
      [classObject "O0" "Registry", singletonObject "O1" "Registry"] := rfl
  have hclass : (classObject "O0" "Registry").parts = [.whole] := by decide +kernel
  have hobject : (singletonObject "O1" "Registry").parts = [.whole] := by decide +kernel
  have hplace : (entityPlaces registryDrawing)[1]? =
      some (singletonObject "O1" "Registry", .whole) := by
    simp [entityPlaces, hclasses, hclass, hobject]
  obtain ⟨m, hm, hentities⟩ := exists_eq_ok_of_toOption_map hmodel
  obtain ⟨e, he, hfirst⟩ := exists_getElem?_of_map_eq hentities (i := 0) rfl
  obtain ⟨o, ho, hsecond⟩ := exists_getElem?_of_map_eq hentities (i := 1) rfl
  obtain ⟨hkind, hereference⟩ := Prod.mk.inj hfirst
  have horigin : m.CompanionOrigin registryDrawing 0 e :=
    .drawn hplace ho (by decide +kernel) ((Prod.mk.inj hsecond).2.trans hereference.symm)
  exact ⟨m, e, hm, he, hkind, horigin, hasCompanion_of_origin hm he hkind horigin⟩

/-- Two counters, of which a dependency makes one the companion of a registry. -/
def sharedCounterDrawing : Node :=
  { Node.ofKind "diagram" with
    children := [
      classObject "O0" "Counter", classObject "O1" "Counter", classObject "O2" "Registry",
      companionEdge "O3" "O1" "O2"] }

/-- The object that a dependency has made of a class is no companion of another class of its
reference. -/
theorem not_hasCompanion_of_sharedCounter :
    ∃ m e o, (ofDrawing sharedCounterDrawing .empty).result = .ok m ∧ m.entities[0]? = some e ∧
      m.entities[1]? = some o ∧ e.kind = .cls ∧ o.kind = .object ∧ e.reference = o.reference ∧
      e.hasCompanion = false := by
  have hmodel : (ofDrawing sharedCounterDrawing .empty).result.toOption.map
      (fun m => m.entities.map fun e => (e.kind, e.reference, e.hasCompanion)) =
      some [(.cls, ⟨"Counter", ""⟩, false), (.object, ⟨"Counter", ""⟩, false),
        (.cls, ⟨"Registry", ""⟩, true)] := by decide +kernel
  obtain ⟨m, hm, hentities⟩ := exists_eq_ok_of_toOption_map hmodel
  obtain ⟨e, he, hfirst⟩ := exists_getElem?_of_map_eq hentities (i := 0) rfl
  obtain ⟨o, ho, hsecond⟩ := exists_getElem?_of_map_eq hentities (i := 1) rfl
  simp only [Prod.mk.injEq] at hfirst hsecond
  obtain ⟨hekind, hereference, hmark⟩ := hfirst
  obtain ⟨hokind, horeference, -⟩ := hsecond
  exact ⟨m, e, o, hm, he, ho, hekind, hokind, hereference.trans horeference.symm, hmark⟩

end Model

end ClassDiagram
