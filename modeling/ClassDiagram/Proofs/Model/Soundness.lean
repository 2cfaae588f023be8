import ClassDiagram.Proofs.Model.AssociationTypes
import ClassDiagram.Proofs.Model.Failure

/-!
# Sound models

The packages and the mutability of entities are settled when they are read, and no later stage
touches them; names and packages as a whole are checked at the end.  So every model is sound
(`Sound`), and the final check never finds an entity that is both mutable and immutable
(`sound_of_ofDrawing`).  It looks for the entities of a package by the name alone, and so it takes
entities in no package for those of a package with an empty name (`exists_packageOf?_of_ofDrawing`).
-/

namespace ClassDiagram

open Text

/-! ### The final check -/

theorem repeatedNames_eq_nil_iff {before names : List String} (h : before.Nodup) :
    repeatedNames before names = [] ↔ (before ++ names).Nodup := by
  induction names generalizing before with
  | nil => simpa [repeatedNames] using h
  | cons name names ih =>
    unfold repeatedNames
    -- As the names before the list are distinct, a name is reported if it is one of them.
    by_cases hname : name ∈ before
    · rw [if_pos (List.count_eq_one_of_mem h hname)]
      simp only [reduceCtorEq, false_iff]
      intro hnodup
      exact List.disjoint_of_nodup_append hnodup hname List.mem_cons_self
    · have hcount : before.count name ≠ 1 := by
        rw [List.count_eq_zero_of_not_mem hname]
        exact Nat.zero_ne_one
      have hnext : (before ++ [name]).Nodup := by
        rw [← List.concat_eq_append]
        exact h.concat hname
      rw [if_neg hcount, ih hnext, List.append_assoc, List.singleton_append]

namespace Entity

/-- The entity is in the first of the packages that encloses it, or in none if no package does. -/
def IsPlaced (packages : List Package) (e : Entity) : Prop :=
  (∃ before p after, packages = before ++ p :: after ∧ p.geometry.Encloses e.geometry ∧
      (∀ q ∈ before, ¬ q.geometry.Encloses e.geometry) ∧ e.package = p.name) ∨
    (∀ p ∈ packages, ¬ p.geometry.Encloses e.geometry) ∧ e.package = ""

theorem isPlaced_of_package_eq {packages : List Package} {e : Entity}
    (h : e.package = packageAround packages e.geometry) : e.IsPlaced packages := by
  unfold packageAround at h
  split at h
  · next p hp =>
    obtain ⟨hencloses, before, after, rfl, hbefore⟩ := List.find?_eq_some_iff_append.1 hp
    refine .inl ⟨before, p, after, rfl, of_decide_eq_true hencloses, ?_, h⟩
    intro q hq
    simpa using hbefore q hq
  · next hnone =>
    refine .inr ⟨?_, h⟩
    intro p hp
    simpa using List.find?_eq_none.1 hnone p hp

theorem IsPlaced.congr {packages : List Package} {d e : Entity} (h : d.IsPlaced packages)
    (hr : e.reference = d.reference) (hg : e.geometry = d.geometry) : e.IsPlaced packages := by
  have hp : e.package = d.package := by rw [package, hr, package]
  unfold IsPlaced
  rw [hg, hp]
  exact h

theorem diagnostics_eq_nil_iff {e : Entity} :
    e.diagnostics = [] ↔ blank e.name = false ∧ ¬ (e.isMutable = true ∧ e.isImmutable = true) := by
  unfold diagnostics
  cases blank e.name <;> cases e.isMutable <;> cases e.isImmutable <;> simp

end Entity

namespace Model

variable {drawing : Node} {imports : ImportTable} {d m : Model} {r : EdgeReading}

theorem diagnostics_eq_nil_iff : m.diagnostics = [] ↔
    (∀ e ∈ m.entities, e.diagnostics = []) ∧ (m.packages.map Package.name).Nodup ∧
      ∀ p ∈ m.packages, ∃ e ∈ m.entities, e.package = p.name := by
  have hempty :
      ((m.packages.map Package.name).filter fun name => (m.entitiesIn name).isEmpty) = [] ↔
        ∀ p ∈ m.packages, ∃ e ∈ m.entities, e.package = p.name := by
    simp [entitiesIn, List.filter_eq_nil_iff]
  rw [diagnostics, List.append_eq_nil_iff, List.append_eq_nil_iff, List.map_eq_nil_iff,
    List.map_eq_nil_iff, List.flatMap_eq_nil_iff, repeatedNames_eq_nil_iff List.nodup_nil,
    hempty, and_assoc]
  rfl

/-- Only entities that are both mutable and immutable are reported as such. -/
theorem code_ne_of_mem_diagnostics
    (h : ∀ e ∈ m.entities, ¬ (e.isMutable = true ∧ e.isImmutable = true)) {x : Diagnostic}
    (hx : x ∈ m.diagnostics) : x.code ≠ "E0102" := by
  rw [diagnostics, List.mem_append, List.mem_append, List.mem_flatMap] at hx
  rcases hx with (⟨e, he, hx⟩ | hx) | hx
  · have hboth : ¬ (e.isMutable && e.isImmutable) = true := by
      rw [Bool.and_eq_true]
      exact h e he
    rw [Entity.diagnostics, if_neg hboth, List.append_nil] at hx
    split at hx
    · obtain rfl := List.mem_singleton.1 hx
      simp [Diagnostic.code]
    · cases hx
  · obtain ⟨name, -, rfl⟩ := List.mem_map.1 hx
    simp [Diagnostic.code]
  · obtain ⟨name, -, rfl⟩ := List.mem_map.1 hx
    simp [Diagnostic.code]

/-! ### What is settled before the edges -/

/-- Neither a class object nor a companion is both mutable and immutable. -/
theorem not_isMutable_and_isImmutable_of_mem
    (hd : (entitiesOfDrawing drawing imports).result = .ok d) {e : Entity} (he : e ∈ d.entities) :
    ¬ (e.isMutable = true ∧ e.isImmutable = true) := by
  obtain ⟨c, e₀, hc, -, he⟩ := exists_readFrom_of_mem hd he
  rcases Entity.eq_or_eq_of_mem_withCompanion he with rfl | rfl | rfl
  · exact hc.not_isMutable_and_isImmutable
  · exact hc.not_isMutable_and_isImmutable
  · simp [Entity.companion]

/-- An entity is placed as the class object is that it comes from. -/
theorem isPlaced_of_mem (hd : (entitiesOfDrawing drawing imports).result = .ok d) {e : Entity}
    (he : e ∈ d.entities) : e.IsPlaced d.packages := by
  obtain ⟨c, e₀, -, hpackage, he⟩ := exists_readFrom_of_mem hd he
  apply Entity.isPlaced_of_package_eq
  rcases Entity.eq_or_eq_of_mem_withCompanion he with rfl | rfl | rfl
  · exact hpackage
  · exact hpackage
  · exact hpackage

theorem Completes.not_isMutable_and_isImmutable (h : d.Completes drawing r m)
    (hd : (entitiesOfDrawing drawing imports).result = .ok d) {e : Entity} (he : e ∈ m.entities) :
    ¬ (e.isMutable = true ∧ e.isImmutable = true) := by
  obtain ⟨i, e₀, he₀, hfinished⟩ := h.exists_drawn_of_mem he
  have hdrawn := not_isMutable_and_isImmutable_of_mem hd he₀
  rw [← hfinished.isMutable_eq, ← hfinished.isImmutable_eq]
  exact hdrawn

theorem Completes.isPlaced (h : d.Completes drawing r m)
    (hd : (entitiesOfDrawing drawing imports).result = .ok d) {e : Entity} (he : e ∈ m.entities) :
    e.IsPlaced m.packages := by
  obtain ⟨i, e₀, he₀, hfinished⟩ := h.exists_drawn_of_mem he
  rw [h.packages_eq]
  exact (isPlaced_of_mem hd he₀).congr hfinished.reference_eq.symm hfinished.geometry_eq.symm

/-! ### Soundness -/

/-- A model with the packages of a drawing, large ones before small ones, in which every entity has
a name, is in the first package that encloses it and is not mutable and immutable at once, and every
package has a name of its own and an entity in it. -/
structure Sound (drawing : Node) (m : Model) : Prop where
  packages : List.Forall₂ (fun c p => Package.read c = .ok p) drawing.packageObjects m.packages
  placed : ∀ e ∈ m.entities, e.IsPlaced m.packages
  named : ∀ e ∈ m.entities, blank e.name = false
  mutability : ∀ e ∈ m.entities, ¬ (e.isMutable = true ∧ e.isImmutable = true)
  packages_nodup : (m.packages.map Package.name).Nodup
  inhabited : ∀ p ∈ m.packages, ∃ e ∈ m.entities, e.package = p.name

/-- The model of a drawing is sound, and if the final check refuses it, then not for an entity that
is both mutable and immutable. -/
theorem sound_of_ofDrawing (drawing : Node) (imports : ImportTable) :
    (∀ m, (ofDrawing drawing imports).result = .ok m → m.Sound drawing) ∧
      ∀ ds, (ofDrawing drawing imports).result = .error (.invalid ds) →
        ∀ x ∈ ds, x.code ≠ "E0102" := by
  constructor
  · intro m h
    obtain ⟨d, r, hd, hm, hdiagnostics⟩ := exists_completion_of_ofDrawing h
    obtain ⟨hentities, hnodup, hinhabited⟩ := diagnostics_eq_nil_iff.1 hdiagnostics
    have hpackages := (exists_of_entitiesOfDrawing hd).1
    refine ⟨?_, fun e he => hm.isPlaced hd he, ?_, ?_, hnodup, hinhabited⟩
    · rw [hm.packages_eq]
      exact hpackages
    · intro e he
      exact (Entity.diagnostics_eq_nil_iff.1 (hentities e he)).1
    · intro e he
      exact (Entity.diagnostics_eq_nil_iff.1 (hentities e he)).2
  · intro ds h
    obtain ⟨d, r, m, hd, hm, rfl⟩ := exists_completion_of_invalid h
    intro x hx
    exact code_ne_of_mem_diagnostics (fun e he => hm.not_isMutable_and_isImmutable hd he) hx

/-! ### A drawing with a package -/

/-- A package around the place of `classObject`. -/
def shop : Node :=
  { Node.object "UML - LargePackage" "O1" with
    children := [
      .named "name" (.ofString "shop"),
      .named "elem_corner" (.ofValue .point "-1,-1"),
      .named "elem_width" (.ofValue .real "4"),
      .named "elem_height" (.ofValue .real "4")] }

/-- A drawing of a shop with the given classes. -/
def shopDrawing (classes : List Node) : Node :=
  { Node.ofKind "diagram" with children := shop :: classes }

/-- A shop with orders has a model, in which the orders are in the package of the shop; an empty one
is refused by the final check. -/
theorem sound_of_shopDrawing :
    (∃ m, (ofDrawing (shopDrawing [classObject "O0" "Order"]) .empty).result = .ok m ∧
      m.Sound (shopDrawing [classObject "O0" "Order"]) ∧
      m.entities.map Entity.package = ["shop"]) ∧
    ∃ ds, (ofDrawing (shopDrawing []) .empty).result = .error (.invalid ds) ∧
      ∀ x ∈ ds, x.code ≠ "E0102" := by
  constructor
  · have hmodel : (ofDrawing (shopDrawing [classObject "O0" "Order"]) .empty).result.toOption.map
        (fun m => m.entities.map Entity.package) = some ["shop"] := by decide +kernel
    cases h : (ofDrawing (shopDrawing [classObject "O0" "Order"]) .empty).result with
    | error e => simp [h, Except.toOption] at hmodel
    | ok m =>
      rw [h, Except.toOption, Option.map_some, Option.some.injEq] at hmodel
      exact ⟨m, rfl, (sound_of_ofDrawing _ _).1 m h, hmodel⟩
  · have hrefused : (ofDrawing (shopDrawing []) .empty).result.map (fun _ => ()) =
        .error (.invalid [.emptyPackage "shop"]) := by decide +kernel
    cases h : (ofDrawing (shopDrawing []) .empty).result with
    | error e =>
      rw [h] at hrefused
      obtain rfl := Except.error.inj hrefused
      exact ⟨_, rfl, (sound_of_ofDrawing _ _).2 _ h⟩
    | ok m =>
      rw [h] at hrefused
      cases hrefused

/-! ### Packages with entities -/

/-- The first package that encloses an entity. -/
def packageOf? (m : Model) (e : Entity) : Option Package :=
  m.packages.find? fun p => p.geometry.Encloses e.geometry

/-- The package of an entity is the first one that encloses it. -/
theorem packageOf?_of_isPlaced {e : Entity} (h : e.IsPlaced m.packages) :
    (∃ p, m.packageOf? e = some p ∧ e.package = p.name) ∨
      m.packageOf? e = none ∧ e.package = "" := by
  rcases h with ⟨before, p, after, hpackages, hencloses, hbefore, hname⟩ | ⟨hnone, hname⟩
  · refine .inl ⟨p, ?_, hname⟩
    refine List.find?_eq_some_iff_append.2 ⟨decide_eq_true hencloses, before, after, hpackages, ?_⟩
    intro q hq
    simpa using hbefore q hq
  · refine .inr ⟨List.find?_eq_none.2 ?_, hname⟩
    intro q hq
    simpa using hnone q hq

/-- Every package is the first one around some entity, unless its name is empty and some entity is
in no package: to the final check the entity belongs to the package, as both names are empty. -/
theorem exists_packageOf?_of_ofDrawing (h : (ofDrawing drawing imports).result = .ok m)
    {p : Package} (hp : p ∈ m.packages) :
    (∃ e ∈ m.entities, m.packageOf? e = some p) ∨
      p.name = "" ∧ ∃ e ∈ m.entities, m.packageOf? e = none := by
  obtain ⟨d, r, hd, hm, hdiagnostics⟩ := exists_completion_of_ofDrawing h
  obtain ⟨-, hnodup, hinhabited⟩ := diagnostics_eq_nil_iff.1 hdiagnostics
  obtain ⟨e, he, hname⟩ := hinhabited p hp
  rcases packageOf?_of_isPlaced (hm.isPlaced hd he) with ⟨q, hq, hqname⟩ | ⟨hnone, hempty⟩
  · -- No two packages have the same name.
    obtain rfl : q = p := List.inj_on_of_nodup_map hnodup (List.mem_of_find?_eq_some hq) hp
      (hqname.symm.trans hname)
    exact .inl ⟨e, he, hq⟩
  · exact .inr ⟨hname.symm.trans hempty, e, he, hnone⟩

theorem exists_packageOf?_of_shop :
    ∃ m p, (ofDrawing (shopDrawing [classObject "O0" "Order"]) .empty).result = .ok m ∧
      p ∈ m.packages ∧ p.name = "shop" ∧
      ((∃ e ∈ m.entities, m.packageOf? e = some p) ∨
        p.name = "" ∧ ∃ e ∈ m.entities, m.packageOf? e = none) := by
  have hmodel : (ofDrawing (shopDrawing [classObject "O0" "Order"]) .empty).result.toOption.map
      (fun m => m.packages.map Package.name) = some ["shop"] := by decide +kernel
  obtain ⟨m, hm, hpackages⟩ := exists_eq_ok_of_toOption_map hmodel
  obtain ⟨p, hp, hname⟩ := exists_getElem?_of_map_eq hpackages (i := 0) rfl
  have hp := List.mem_of_getElem? hp
  exact ⟨m, p, hm, hp, hname, exists_packageOf?_of_ofDrawing hm hp⟩

/-- A package without a name, away from the place of `classObject`. -/
def blankPackage : Node :=
  { Node.object "UML - LargePackage" "O1" with
    children := [
      .named "name" (.ofString ""),
      .named "elem_corner" (.ofValue .point "10,10"),
      .named "elem_width" (.ofValue .real "4"),
      .named "elem_height" (.ofValue .real "4")] }

/-- A drawing of orders beside the package without a name. -/
def blankPackageDrawing : Node :=
  { Node.ofKind "diagram" with children := [blankPackage, classObject "O0" "Order"] }

/-- The final check takes the orders, which are in no package, for those of the package without a
name. -/
theorem packageOf?_ne_of_blankPackage :
    ∃ m p, (ofDrawing blankPackageDrawing .empty).result = .ok m ∧ p ∈ m.packages ∧
      ∀ e ∈ m.entities, m.packageOf? e ≠ some p := by
  have hmodel : (ofDrawing blankPackageDrawing .empty).result.toOption.map (fun m =>
      (m.packages.map Package.name, m.entities.all fun e => (m.packageOf? e).isNone)) =
      some ([""], true) := by decide +kernel
  obtain ⟨m, hm, hfound⟩ := exists_eq_ok_of_toOption_map hmodel
  obtain ⟨hpackages, hnone⟩ := Prod.mk.inj hfound
  obtain ⟨p, hp, -⟩ := exists_getElem?_of_map_eq hpackages (i := 0) rfl
  refine ⟨m, p, hm, List.mem_of_getElem? hp, ?_⟩
  intro e he hsome
  have hnone := List.all_eq_true.1 hnone e he
  rw [hsome] at hnone
  cases hnone

end Model

end ClassDiagram
