import ClassDiagram.Proofs.Model.Qualified
import ClassDiagram.Proofs.TypeExpr.Correspondence

/-!
# What cross references come to

The stage for cross references goes over the types of members twice, once for the entities of the
model and once for its import table.  What comes of it can be said of each reference by itself: one
with a package stays, and one without gets the package of the first entity of its name, or, if there
is no such entity or it has no package, that of the import table, or else stays as well
(`Model.Settles`).  Everything but these references is left (`Model.SettlesModel`), and a model
whose references have been settled is left altogether (`Model.resolveCrossReferences_exact`).
-/

namespace ClassDiagram

/-! ### Members and entities of the same shape -/

section Corresponds

variable (R : EntityRef → EntityRef → Prop)

/-- The attributes differ in their types only, and these correspond. -/
structure Attribute.Corresponds (a a' : Attribute) : Prop where
  eq_withType : a' = { a with type := a'.type }
  type : Option.Rel (TypeExpr.Corresponds R) a.type a'.type

/-- The parameters differ in their types only, and these correspond. -/
structure Parameter.Corresponds (p p' : Parameter) : Prop where
  eq_withType : p' = { p with type := p'.type }
  type : TypeExpr.Corresponds R p.type p'.type

/-- The operations differ in the types of their parameters and of their results only, and these
correspond. -/
structure Operation.Corresponds (o o' : Operation) : Prop where
  eq_withTypes : o' = { o with parameters := o'.parameters, returnType := o'.returnType }
  parameters : List.Forall₂ (Parameter.Corresponds R) o.parameters o'.parameters
  returnType : Option.Rel (TypeExpr.Corresponds R) o.returnType o'.returnType

/-- The entities differ in the types of their members only, and these correspond. -/
structure Entity.Corresponds (e e' : Entity) : Prop where
  eq_withMembers : e' = { e with attributes := e'.attributes, operations := e'.operations }
  attributes : List.Forall₂ (Attribute.Corresponds R) e.attributes e'.attributes
  operations : List.Forall₂ (Operation.Corresponds R) e.operations e'.operations

end Corresponds

section MapTypes

variable {f : EntityRef → EntityRef}

theorem TypeExpr.option_corresponds_iff {t t' : Option TypeExpr} :
    Option.Rel (TypeExpr.Corresponds fun r s => s = f r) t t' ↔
      t' = t.map (TypeExpr.mapLeaves f) := by
  constructor
  · intro h
    cases h with
    | none => rfl
    | some h => rw [Option.map_some, TypeExpr.corresponds_iff.1 h]
  · rintro rfl
    cases t with
    | none => exact .none
    | some t => exact .some (TypeExpr.corresponds_iff.2 rfl)

theorem Attribute.corresponds_iff {a a' : Attribute} :
    a.Corresponds (fun r s => s = f r) a' ↔ a' = a.mapTypes f := by
  constructor
  · rintro ⟨heq, htype⟩
    rw [TypeExpr.option_corresponds_iff] at htype
    rw [heq, htype, mapTypes]
  · rintro rfl
    exact ⟨rfl, TypeExpr.option_corresponds_iff.2 rfl⟩

theorem Parameter.corresponds_iff {p p' : Parameter} :
    p.Corresponds (fun r s => s = f r) p' ↔ p' = p.mapTypes f := by
  constructor
  · rintro ⟨heq, htype⟩
    rw [TypeExpr.corresponds_iff] at htype
    rw [heq, htype, mapTypes]
  · rintro rfl
    exact ⟨rfl, TypeExpr.corresponds_iff.2 rfl⟩

theorem Operation.corresponds_iff {o o' : Operation} :
    o.Corresponds (fun r s => s = f r) o' ↔ o' = o.mapTypes f := by
  have hparameters {ps : List Parameter} :
      List.Forall₂ (Parameter.Corresponds fun r s => s = f r) o.parameters ps ↔
        ps = o.parameters.map (Parameter.mapTypes f) :=
    forall₂_iff_eq_map fun _ _ _ => Parameter.corresponds_iff
  constructor
  · rintro ⟨heq, hps, hreturn⟩
    rw [hparameters] at hps
    rw [TypeExpr.option_corresponds_iff] at hreturn
    rw [heq, hps, hreturn, mapTypes]
  · rintro rfl
    exact ⟨rfl, hparameters.2 rfl, TypeExpr.option_corresponds_iff.2 rfl⟩

theorem Entity.corresponds_iff {e e' : Entity} :
    e.Corresponds (fun r s => s = f r) e' ↔ e' = e.mapTypes f := by
  have hattributes {as : List Attribute} :
      List.Forall₂ (Attribute.Corresponds fun r s => s = f r) e.attributes as ↔
        as = e.attributes.map (Attribute.mapTypes f) :=
    forall₂_iff_eq_map fun _ _ _ => Attribute.corresponds_iff
  have hoperations {os : List Operation} :
      List.Forall₂ (Operation.Corresponds fun r s => s = f r) e.operations os ↔
        os = e.operations.map (Operation.mapTypes f) :=
    forall₂_iff_eq_map fun _ _ _ => Operation.corresponds_iff
  constructor
  · rintro ⟨heq, has, hos⟩
    rw [hattributes] at has
    rw [hoperations] at hos
    rw [heq, has, hos, mapTypes]
  · rintro rfl
    exact ⟨rfl, hattributes.2 rfl, hoperations.2 rfl⟩

end MapTypes

namespace Model

variable {m n : Model} {r s : EntityRef}

/-! ### References -/

/-- The entity is the first one of the model with the name. -/
def FirstNamed (m : Model) (name : String) (e : Entity) : Prop :=
  e.name = name ∧ ∃ before after, m.entities = before ++ e :: after ∧ ∀ x ∈ before, x.name ≠ name

/-- The model knows no package for the name: its first entity of the name, if there is one, has no
package. -/
def NoneDrawn (m : Model) (name : String) : Prop :=
  ∀ e, m.FirstNamed name e → e.package = ""

/-- What becomes of a reference `r` in the type of a member. -/
inductive Settles (m : Model) (r : EntityRef) : EntityRef → Prop
  | kept (hpackage : r.package ≠ "") : Settles m r r
  | drawn {e : Entity} (hpackage : r.package = "") (he : m.FirstNamed r.name e)
      (hdrawn : e.package ≠ "") : Settles m r ⟨r.name, e.package⟩
  | imported {package : String} (hpackage : r.package = "") (hnone : m.NoneDrawn r.name)
      (himport : ImportTable.package? m.imports r.name = some package) :
      Settles m r ⟨r.name, package⟩
  | unknown (hpackage : r.package = "") (hnone : m.NoneDrawn r.name)
      (himport : ImportTable.package? m.imports r.name = none) : Settles m r r

theorem firstNamed_iff {name : String} {e : Entity} :
    m.FirstNamed name e ↔ (m.entities.find? fun x => x.name = name) = some e := by
  rw [List.find?_eq_some_iff_append, FirstNamed]
  simp only [decide_eq_true_eq, Bool.not_eq_true', decide_eq_false_iff_not]

theorem noneDrawn_iff {name : String} :
    m.NoneDrawn name ↔
      ((m.entities.find? fun x => x.name = name).map Entity.package).filter (· ≠ "") = none := by
  simp only [NoneDrawn, firstNamed_iff]
  cases m.entities.find? fun x => x.name = name with
  | none => simp
  | some e => simp [Option.filter]

theorem packageFor_of_firstNamed {name : String} {e : Entity} (he : m.FirstNamed name e)
    (hdrawn : e.package ≠ "") : m.packageFor name = e.package := by
  rw [firstNamed_iff] at he
  simp [packageFor, he, Option.filter, hdrawn]

theorem packageFor_of_noneDrawn {name : String} (hnone : m.NoneDrawn name) :
    m.packageFor name = (ImportTable.package? m.imports name).getD "" := by
  rw [noneDrawn_iff] at hnone
  simp only [packageFor, hnone, Option.none_or]

theorem qualified_of_isQualified (hpackage : r.package ≠ "") : m.qualified r = r := by
  rw [qualified, if_pos (by simpa [EntityRef.isQualified] using hpackage)]

theorem qualified_of_not_isQualified (hpackage : r.package = "") :
    m.qualified r = ⟨r.name, m.packageFor r.name⟩ := by
  rw [qualified, if_neg (by simpa [EntityRef.isQualified] using hpackage), EntityRef.withPackage]

theorem Settles.eq_qualified (h : m.Settles r s) : s = m.qualified r := by
  cases h with
  | kept hpackage => rw [qualified_of_isQualified hpackage]
  | drawn hpackage he hdrawn =>
    rw [qualified_of_not_isQualified hpackage, packageFor_of_firstNamed he hdrawn]
  | imported hpackage hnone himport =>
    rw [qualified_of_not_isQualified hpackage, packageFor_of_noneDrawn hnone, himport,
      Option.getD_some]
  | unknown hpackage hnone himport =>
    rw [qualified_of_not_isQualified hpackage, packageFor_of_noneDrawn hnone, himport,
      Option.getD_none, ← hpackage]

/-- One of the four cases is that of the reference. -/
theorem exists_settles (m : Model) (r : EntityRef) : ∃ s, m.Settles r s := by
  by_cases hpackage : r.package = ""
  · by_cases hnone : m.NoneDrawn r.name
    · cases himport : ImportTable.package? m.imports r.name with
      | none => exact ⟨_, .unknown hpackage hnone himport⟩
      | some package => exact ⟨_, .imported hpackage hnone himport⟩
    · rw [NoneDrawn, not_forall] at hnone
      obtain ⟨e, he⟩ := hnone
      obtain ⟨hfirst, hdrawn⟩ := Classical.not_imp.1 he
      exact ⟨_, .drawn hpackage hfirst hdrawn⟩
  · exact ⟨r, .kept hpackage⟩

/-- A reference settles in one way, which is the one computed. -/
theorem settles_iff : m.Settles r s ↔ s = m.qualified r := by
  constructor
  · exact Settles.eq_qualified
  · rintro rfl
    obtain ⟨s, hs⟩ := m.exists_settles r
    exact hs.eq_qualified ▸ hs

/-- A reference that has got a package keeps it, and one that has not gets none the next time. -/
theorem qualified_qualified (m : Model) (r : EntityRef) :
    m.qualified (m.qualified r) = m.qualified r := by
  by_cases hpackage : r.package = ""
  · rw [qualified_of_not_isQualified hpackage]
    by_cases hfound : m.packageFor r.name = ""
    · rw [qualified_of_not_isQualified hfound]
    · rw [qualified_of_isQualified hfound]
  · rw [qualified_of_isQualified hpackage, qualified_of_isQualified hpackage]

/-! ### Models -/

/-- The model `n` is the model `m` with the references in the types of its members settled. -/
structure SettlesModel (m n : Model) : Prop where
  packages_eq : n.packages = m.packages
  imports_eq : n.imports = m.imports
  entities : List.Forall₂ (Entity.Corresponds m.Settles) m.entities n.entities

theorem settlesModel_iff : m.SettlesModel n ↔ n = m.qualifyReferences := by
  have hsettles : m.Settles = fun r s => s = m.qualified r := by
    funext r s
    exact propext settles_iff
  have hentities : List.Forall₂ (Entity.Corresponds m.Settles) m.entities n.entities ↔
      n.entities = m.entities.map (Entity.mapTypes m.qualified) := by
    rw [hsettles]
    exact forall₂_iff_eq_map fun _ _ _ => Entity.corresponds_iff
  rw [qualifyReferences_eq_mapTypes]
  constructor
  · rintro ⟨hpackages, himports, hes⟩
    exact ext_parts hpackages (hentities.1 hes) himports
  · rintro rfl
    exact ⟨rfl, rfl, hentities.2 rfl⟩

/-- To settle the references of a model once more changes nothing. -/
theorem qualifyReferences_qualifyReferences (m : Model) :
    m.qualifyReferences.qualifyReferences = m.qualifyReferences := by
  have hqualified : (m.mapTypes m.qualified).qualified = m.qualified := by
    apply qualified_congr
    · show (m.entities.map _).map _ = _
      rw [List.map_map]
      rfl
    · rfl
  simp only [qualifyReferences_eq_mapTypes]
  rw [hqualified]
  refine ext_parts rfl ?_ rfl
  show (m.entities.map _).map _ = m.entities.map _
  rw [List.map_map]
  refine List.map_congr_left fun e _ => ?_
  rw [Function.comp_apply, Entity.mapTypes_mapTypes]
  simp only [qualified_qualified]

/-- The stage for cross references always has a result, which is the model with its references
settled and nothing else changed, and leaves a model alone that it has had before. -/
theorem resolveCrossReferences_exact (m : Model) :
    ∃ n, m.resolveCrossReferences.result = .ok n ∧ (∀ k, m.SettlesModel k ↔ k = n) ∧
      n.resolveCrossReferences.result = .ok n := by
  refine ⟨m.qualifyReferences, rfl, fun k => settlesModel_iff, ?_⟩
  show Except.ok m.qualifyReferences.qualifyReferences = _
  rw [qualifyReferences_qualifyReferences]

end Model

end ClassDiagram
