import ClassDiagram.Proofs.Outcome.Traced
import ClassDiagram.Proofs.Stereotype.Class
import ClassDiagram.Proofs.TypeExpr.RoundTrip
import ClassDiagram.Reading.Class

/-!
# What is read from a class object

The entity of a class object has the name and the place of the object, the kind and the mutability
that its stereotypes say, and one member for each record, in the order of the records
(`readFrom_of_read`).
-/

namespace ClassDiagram

open Text Stereotype

/-! ### Types without packages -/

/-- No reference in the type names a package. -/
def TypeExpr.Unqualified (t : TypeExpr) : Prop := ∀ r ∈ t.leaves, r.package = ""

/-- No type of a parameter or of the result names a package. -/
def Operation.Unqualified (o : Operation) : Prop :=
  (∀ t ∈ o.signature, t.Unqualified) ∧ ∀ t ∈ o.returnType, t.Unqualified

theorem TypeExpr.unqualified_of_parse {text : String} {t : TypeExpr} (h : parse text = .ok t) :
    t.Unqualified :=
  (parse_eq_ok_iff.1 h).package_eq

/-! ### Stereotypes -/

namespace Stereotype.ClassStereotypes

/-- An entity is an object just when one of its stereotypes says so. -/
theorem kind_eq_object_iff {entity text : String} {s : ClassStereotypes}
    (h : read entity text = .ok s) :
    s.kind = .object ↔
      ∃ token ∈ splitTokens text, EntityKind.ofStereotype? token = some .object := by
  rcases (saidBy_of_read h).1.kind with ⟨hkinds, hkind⟩ | ⟨token, hkinds, hkind⟩
  · refine iff_of_false (by simp [hkind]) ?_
    rintro ⟨token, htoken, hobject⟩
    have hmem := mem_kindTokens_iff.2 ⟨htoken, _, hobject⟩
    simp [hkinds] at hmem
  · rw [← EntityKind.ofStereotype?_eq_some_iff] at hkind
    constructor
    · intro hobject
      have hmem : token ∈ kindTokens (splitTokens text) := hkinds ▸ List.mem_singleton_self token
      exact ⟨token, (mem_kindTokens_iff.1 hmem).1, hobject ▸ hkind⟩
    · rintro ⟨token', htoken', hobject⟩
      -- The kind is named by one stereotype only.
      have hmem := mem_kindTokens_iff.2 ⟨htoken', _, hobject⟩
      obtain rfl : token' = token := by simpa [hkinds] using hmem
      exact Option.some.inj (hkind.symm.trans hobject)

end Stereotype.ClassStereotypes

/-! ### Records -/

/-- The records of the attributes of a class object. -/
def Node.attributeRecords (n : Node) : List Node := n.recordsOfType "attributes" "umlattribute"

/-- The records of the operations of a class object. -/
def Node.operationRecords (n : Node) : List Node := n.recordsOfType "operations" "umloperation"

/-- The member of a record belongs to the class and not to its instances. -/
def Node.isClassScoped (record : Node) : Bool :=
  match record.boolean "class_scope" with
  | .ok isClassScope => isClassScope
  | .error _ => false

/-- A stereotype of a class object says that the entity is an object. -/
def Node.drawsObject (n : Node) : Bool :=
  match n.optionalString "stereotype" with
  | .ok text =>
    (splitTokens (text.getD "")).any fun token => EntityKind.ofStereotype? token = some .object
  | .error _ => false

theorem Attribute.isClassScope_of_read {owner : String} {mutability : Option Mutability}
    {record : Node} {a : Attribute} (h : (Attribute.read owner mutability record).result = .ok a) :
    a.isClassScope = record.isClassScoped := by
  simp only [Attribute.read, Traced.result_bind_eq_ok_iff, Traced.result_liftM_eq_ok_iff] at h
  obtain ⟨name, -, flags, -, text, -, type, -, visibility, -, default, -, isClassScope, hscope,
    h⟩ := h
  cases h
  rw [Node.isClassScoped, hscope]

theorem Operation.isClassScope_of_read {owner : String} {record : Node} {o : Operation}
    (h : Operation.read owner record = .ok o) : o.isClassScope = record.isClassScoped := by
  simp only [Operation.read, bind_eq_ok_iff, mapError_eq_ok_iff] at h
  obtain ⟨name, -, text, -, returnType, -, visibility, -, isClassScope, hscope, parameters, -,
    h⟩ := h
  cases h
  rw [Node.isClassScoped, hscope]

theorem TypeExpr.unqualified_of_readAt {site : TypeSite} {text : String} {t : TypeExpr}
    (h : TypeExpr.readAt site text = .ok t) : t.Unqualified :=
  unqualified_of_parse (mapError_eq_ok_iff.1 h)

/-- A type is read where the text is not blank. -/
theorem TypeExpr.readUnlessBlank_eq_ok_some {site : TypeSite} {text : String} {t : TypeExpr}
    (h : readUnlessBlank site text = .ok (some t)) :
    blank text = false ∧ readAt site text = .ok t := by
  unfold readUnlessBlank at h
  split at h
  · cases h
  · next hblank =>
    obtain ⟨t', ht', heq⟩ := map_eq_ok_iff.1 h
    obtain rfl : t' = t := Option.some.inj heq
    exact ⟨Bool.eq_false_of_not_eq_true hblank, ht'⟩

/-- The types of an operation are read from texts. -/
theorem Operation.exists_of_read {owner : String} {record : Node} {o : Operation}
    (h : Operation.read owner record = .ok o) :
    (∀ p ∈ o.parameters, ∃ site text, TypeExpr.readAt site text = .ok p.type) ∧
      ∃ site text, TypeExpr.readUnlessBlank site text = .ok o.returnType := by
  simp only [Operation.read, bind_eq_ok_iff, mapError_eq_ok_iff, mapM_eq_ok_iff] at h
  obtain ⟨name, -, text, -, returnType, hreturn, visibility, -, isClassScope, -, parameters,
    hparameters, h⟩ := h
  cases h
  refine ⟨?_, _, _, hreturn⟩
  intro p hp
  obtain ⟨record, -, hrecord⟩ := exists_of_forall₂_right hparameters hp
  simp only [Parameter.read, bind_eq_ok_iff, mapError_eq_ok_iff] at hrecord
  obtain ⟨name, -, text, -, type, htype, default, -, hrecord⟩ := hrecord
  cases hrecord
  exact ⟨_, _, htype⟩

/-- The types of an operation are read without packages. -/
theorem Operation.unqualified_of_read {owner : String} {record : Node} {o : Operation}
    (h : Operation.read owner record = .ok o) : o.Unqualified := by
  obtain ⟨hparameters, site, text, hreturn⟩ := Operation.exists_of_read h
  constructor
  · intro t ht
    obtain ⟨p, hp, rfl⟩ := List.mem_map.1 ht
    obtain ⟨site, text, htype⟩ := hparameters p hp
    exact TypeExpr.unqualified_of_readAt htype
  · intro t ht
    have ht : o.returnType = some t := ht
    rw [ht] at hreturn
    exact TypeExpr.unqualified_of_readAt (TypeExpr.readUnlessBlank_eq_ok_some hreturn).2

/-! ### Entities -/

/-- The entity `e` is what a class object spells out. -/
structure Entity.ReadFrom (n : Node) (e : Entity) : Prop where
  id_eq : n.requiredId = .ok e.id
  name_eq : ∃ text, n.string "name" = .ok text ∧ e.name = trimmed text
  geometry_eq : n.rectangle = .ok e.geometry
  stereotypes_eq : ∃ text s, n.optionalString "stereotype" = .ok text ∧
    ClassStereotypes.read e.name (text.getD "") = .ok s ∧
    e.kind = s.kind ∧ e.isMutable = s.isMutable ∧ e.isImmutable = s.isImmutable
  superclass_eq : e.superclass = none
  mixins_eq : e.mixins = []
  attributes : List.Forall₂ (fun r a => (Attribute.read e.name e.mutability r).result = .ok a)
    n.attributeRecords e.attributes
  operations : List.Forall₂ (fun r o => Operation.read e.name r = .ok o)
    n.operationRecords e.operations

theorem Entity.readFrom_of_read {n : Node} {e : Entity} (h : (Entity.read n).result = .ok e) :
    e.ReadFrom n := by
  simp only [Entity.read, Traced.result_bind_eq_ok_iff, Traced.result_liftM_eq_ok_iff,
    Traced.result_liftM, Traced.result_mapM_eq_ok_iff, Traced.result_ofExcept] at h
  obtain ⟨id, hid, name, hname, geometry, hgeometry, text, htext, s, hs, -, -, attributes,
    hattributes, operations, hoperations, h⟩ := h
  cases h
  exact ⟨hid, ⟨name, hname, rfl⟩, hgeometry, ⟨text, s, htext, hs, rfl, rfl, rfl⟩, rfl, rfl,
    hattributes, hoperations⟩

namespace Entity.ReadFrom

variable {n : Node} {e : Entity}

theorem id?_eq (h : e.ReadFrom n) : n.id? = some e.id := by
  have hid := h.id_eq
  unfold Node.requiredId at hid
  split at hid
  · next id heq =>
    rw [heq, Except.ok.inj hid]
  · cases hid

theorem isObject_eq (h : e.ReadFrom n) : e.isObject = n.drawsObject := by
  obtain ⟨text, s, htext, hs, hkind, -, -⟩ := h.stereotypes_eq
  rw [Entity.isObject, hkind, Node.drawsObject, htext, Bool.eq_iff_iff, decide_eq_true_eq,
    ClassStereotypes.kind_eq_object_iff hs, List.any_eq_true]
  simp only [decide_eq_true_eq]

theorem not_isMutable_and_isImmutable (h : e.ReadFrom n) :
    ¬ (e.isMutable = true ∧ e.isImmutable = true) := by
  obtain ⟨text, s, -, hs, -, hmutable, himmutable⟩ := h.stereotypes_eq
  rw [hmutable, himmutable]
  exact (ClassStereotypes.saidBy_of_read hs).2

end Entity.ReadFrom

end ClassDiagram
