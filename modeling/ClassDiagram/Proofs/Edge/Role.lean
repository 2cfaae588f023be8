import ClassDiagram.Proofs.Model.Bindings
import ClassDiagram.Proofs.TypeExpr.Grammar

/-!
# Roles

The role of an end has a stereotype, a name and a type (`Role.IsReadFrom`).  The stereotype and the
mutability of the owner decide about the binding of the attribute that the end yields; its type is
the declared one, or as many of the entity at the end as the multiplicity says
(`AssociationEnd.attributeType_eq_ok_iff`).  `AssociationEnd.exists_yields_iff` puts together which
attribute an end yields.
-/

namespace ClassDiagram

open Text Stereotype

/-! ### Types -/

/-- As many values of the type `t` as the multiplicity says have this type. -/
inductive TypeExpr.HoldsMany (multiplicity : String) (t : TypeExpr) : TypeExpr → Prop
  | option (h : trimmed multiplicity ∈ ["0..1", "0-1"]) : HoldsMany multiplicity t (optionOf t)
  | seq (h : trimmed multiplicity ∈ ["*", "n", "0..*"]) : HoldsMany multiplicity t (seqOf t)
  | one (h : trimmed multiplicity ∉ ["0..1", "0-1", "*", "n", "0..*"]) : HoldsMany multiplicity t t

theorem TypeExpr.ofMultiplicity_eq_iff {multiplicity : String} {t t' : TypeExpr} :
    ofMultiplicity multiplicity t = t' ↔ HoldsMany multiplicity t t' := by
  rw [ofMultiplicity]
  generalize hm : trimmed multiplicity = m
  constructor
  · rintro rfl
    split_ifs with hoption hseq
    · exact .option (by simpa [hm] using hoption)
    · exact .seq (by simpa [hm] using hseq)
    · exact .one (by simp_all)
  · rintro (h | h | h)
    · rw [if_pos (by simpa [hm] using h)]
    · have hseq : m = "*" ∨ m = "n" ∨ m = "0..*" := by simpa [hm] using h
      rw [if_neg (by rcases hseq with rfl | rfl | rfl <;> decide), if_pos hseq]
    · rw [if_neg (by simp_all), if_neg (by simp_all)]

namespace AssociationEnd

variable {e : AssociationEnd} {owner target : Entity}

/-- The type of the attribute that an end adds for the entity `target`: the declared one, or else
one that holds the entity as often as the multiplicity says. -/
inductive TypedAs (e : AssociationEnd) (target : Entity) : Option String → TypeExpr → Prop
  | declared {text : String} {t : TypeExpr} (h : TypeExpr.Derives (trim text.toList) t) :
      TypedAs e target (some text) t
  | drawn {t : TypeExpr} (h : TypeExpr.HoldsMany e.multiplicity (.user target.reference) t) :
      TypedAs e target none t

theorem attributeType_eq_ok_iff {t : TypeExpr} :
    e.attributeType owner target = .ok t ↔ e.TypedAs target e.declaredType? t := by
  rw [attributeType]
  cases e.declaredType? with
  | some text =>
    dsimp only
    rw [TypeExpr.readAt, mapError_eq_ok_iff, TypeExpr.parse, TypeExpr.parseChars_eq_ok_iff]
    constructor
    · exact .declared
    · rintro (h | h)
      exact h
  | none =>
    rw [Except.ok.injEq, TypeExpr.ofMultiplicity_eq_iff]
    constructor
    · exact .drawn
    · rintro (h | h)
      exact h

end AssociationEnd

/-! ### The attribute of an end -/

/-- The parts of a role. -/
structure Role where
  /-- The stereotype before the name, if there is one. -/
  stereotype : Option String
  /-- The name of the attribute. -/
  name : String
  /-- The declared type, if there is one. -/
  type : Option String

/-- The text is read as this role. -/
def Role.IsReadFrom (r : Role) (text : String) : Prop :=
  ∃ rest, NamesMember text ⟨r.stereotype, rest⟩ ∧ NamesRole rest r.name r.type

/-- There is one way to read a role, and it is the one that is taken. -/
theorem Role.isReadFrom_iff {r : Role} {e : AssociationEnd} :
    r.IsReadFrom e.role ↔
      r = ⟨(splitMemberName e.role).stereotype, e.attributeName, e.declaredType?⟩ := by
  simp only [IsReadFrom, ← splitMemberName_eq_iff, ← splitRoleType_eq_iff]
  constructor
  · rintro ⟨rest, hmember, hrole⟩
    rw [AssociationEnd.attributeName, AssociationEnd.declaredType?, hmember, hrole]
  · rintro rfl
    refine ⟨(splitMemberName e.role).name, rfl, ?_⟩
    rw [AssociationEnd.attributeName, AssociationEnd.declaredType?]

namespace AssociationEnd

variable {e : AssociationEnd} {owner target : Entity}

/-- The end with the role `r` yields the attribute `a` for the entity `owner`, when `target` stands
at the end. -/
structure Yields (e : AssociationEnd) (r : Role) (owner target : Entity) (a : Attribute) :
    Prop where
  name_eq : a.name = r.name
  name_ne : a.name ≠ ""
  bindsAs : BindsAs r.stereotype owner.mutability a.flags
  typedAs : ∃ t, a.type = some t ∧ e.TypedAs target r.type t
  visibility_eq : a.visibility = e.visibility
  default_eq : a.default = none
  isOverriding_eq : a.isOverriding = false
  isClassScope_eq : a.isClassScope = false

theorem yields_iff {r : Role} {a : Attribute} : e.Yields r owner target a ↔
    r.name ≠ "" ∧ ∃ flags type, BindsAs r.stereotype owner.mutability flags ∧
      e.TypedAs target r.type type ∧
      a = {
        name := r.name
        type := some type
        visibility := e.visibility
        isVal := flags.isVal
        default := none
        isLazy := flags.isLazy
        isOverriding := false
        isClassScope := false } := by
  obtain ⟨stereotype, name, declared⟩ := r
  constructor
  · rintro ⟨hname, hne, hbinds, ⟨t, ht, htyped⟩, hvisibility, hdefault, hoverriding, hscope⟩
    refine ⟨hname ▸ hne, a.flags, t, hbinds, htyped, ?_⟩
    rw [← ht, ← hvisibility, ← hname]
    cases a
    simp_all [Attribute.flags]
  · rintro ⟨hne, flags, t, hbinds, htyped, rfl⟩
    exact ⟨rfl, hne, hbinds, ⟨t, rfl, htyped⟩, rfl, rfl, rfl, rfl⟩

/-- Which attribute an end adds. -/
theorem exists_yields_iff {edge : Node} {a : Attribute} :
    (∃ r : Role, r.IsReadFrom e.role ∧ e.Yields r owner target a) ↔
      (e.toAttribute edge owner target).result = .ok a := by
  simp only [Role.isReadFrom_iff, exists_eq_left, yields_iff, toAttribute_eq_ok_iff,
    bindMember_eq_ok_iff, attributeType_eq_ok_iff]

end AssociationEnd

end ClassDiagram
