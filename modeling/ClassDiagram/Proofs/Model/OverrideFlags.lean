import ClassDiagram.Proofs.Model.Overrides

/-!
# Which members are marked

Marking the overriding members of a model changes nothing but their flags, and it settles every
flag: a member is marked just when it overrides a member of an ancestor of its entity
(`Model.markOverrides_eq_ok_iff_marksExactly`).

Neither the search for ancestors nor the comparison of members looks at flags.  So a model whose
entities have been marked before, in whatever way, is marked as if they had not been
(`Model.markOverrides_mapEntities`).  Two cases of this are a model without its flags and a model
that has been marked already: the flags that a model comes with do not matter, and to mark a model
again leaves it as it is (`Model.analyzeOverrides_exact`).
-/

namespace ClassDiagram

/-! ### Members that override others -/

/-- The entity has a member that the attribute overrides: an attribute of the same name, or an
operation of that name without parameters. -/
def Attribute.OverridesMember (a : Attribute) (x : Entity) : Prop :=
  (∃ b ∈ x.attributes, b.name = a.name) ∨ ∃ o ∈ x.operations, o.name = a.name ∧ o.parameters = []

/-- The entity has a member that the operation overrides: an operation of the same name with the
same types of parameters and result, or, if the operation has no parameters, an attribute of its
name. -/
def Operation.OverridesMember (o : Operation) (x : Entity) : Prop :=
  (∃ p ∈ x.operations, p.name = o.name ∧ p.signature = o.signature ∧
      p.returnType = o.returnType) ∨
    (o.parameters = [] ∧ ∃ a ∈ x.attributes, a.name = o.name)

theorem Attribute.overrides_iff {a : Attribute} {x : Entity} :
    a.overrides x = true ↔ a.OverridesMember x := by
  simp [overrides, OverridesMember]

theorem Operation.overrides_iff {o : Operation} {x : Entity} :
    o.overrides x = true ↔ o.OverridesMember x := by
  simp [overrides, OverridesMember, and_assoc]

theorem Attribute.any_overrides_iff {a : Attribute} {as : List Entity} :
    as.any a.overrides = true ↔ ∃ x ∈ as, a.OverridesMember x := by
  simp only [List.any_eq_true, overrides_iff]

theorem Operation.any_overrides_iff {o : Operation} {as : List Entity} :
    as.any o.overrides = true ↔ ∃ x ∈ as, o.OverridesMember x := by
  simp only [List.any_eq_true, overrides_iff]

/-! ### Flags of entities -/

/-- The attribute without its flag. -/
def Attribute.unmarked (a : Attribute) : Attribute :=
  { a with isOverriding := false }

/-- The operation without its flag. -/
def Operation.unmarked (o : Operation) : Operation :=
  { o with isOverriding := false }

namespace Entity

variable {e e' : Entity} {as : List Entity}

/-- The entity without the flags of its members. -/
def unmarked (e : Entity) : Entity :=
  { e with
    attributes := e.attributes.map Attribute.unmarked
    operations := e.operations.map Operation.unmarked }

/-- Just those members of the entity are marked that override a member of one of the ancestors. -/
structure MarksOverriding (e : Entity) (ancestors : List Entity) : Prop where
  attributes : ∀ a ∈ e.attributes,
    a.isOverriding = true ↔ ∃ x ∈ ancestors, a.OverridesMember x
  operations : ∀ o ∈ e.operations,
    o.isOverriding = true ↔ ∃ x ∈ ancestors, o.OverridesMember x

/-- To take the flags off is to mark the members of an entity without ancestors. -/
theorem unmarked_eq_markOverrides (e : Entity) : e.unmarked = e.markOverrides [] := rfl

/-- Flags are overwritten. -/
theorem markOverrides_markOverrides (e : Entity) (as bs : List Entity) :
    (e.markOverrides bs).markOverrides as = e.markOverrides as := by
  unfold markOverrides
  rw [List.map_map, List.map_map]
  rfl

/-- The flags of ancestors do not matter. -/
theorem markOverrides_map (e : Entity) (f : Entity → List Entity) (as : List Entity) :
    e.markOverrides (as.map fun x => x.markOverrides (f x)) = e.markOverrides as := by
  have hattribute (a : Attribute) := a.any_overrides_map f as
  have hoperation (o : Operation) := o.any_overrides_map f as
  unfold markOverrides at hattribute hoperation ⊢
  simp only [hattribute, hoperation]

theorem unmarked_markOverrides (e : Entity) (as : List Entity) :
    (e.markOverrides as).unmarked = e.unmarked := by
  rw [unmarked_eq_markOverrides, markOverrides_markOverrides, unmarked_eq_markOverrides]

theorem markOverrides_unmarked (e : Entity) (as : List Entity) :
    e.unmarked.markOverrides as = e.markOverrides as := by
  rw [unmarked_eq_markOverrides, markOverrides_markOverrides]

theorem marksOverriding_markOverrides (e : Entity) (as : List Entity) :
    (e.markOverrides as).MarksOverriding as := by
  constructor
  · intro a ha
    obtain ⟨b, -, rfl⟩ := List.mem_map.1 ha
    exact b.any_overrides_iff
  · intro o ho
    obtain ⟨p, -, rfl⟩ := List.mem_map.1 ho
    exact p.any_overrides_iff

/-- An entity with the right flags stays as it is. -/
theorem MarksOverriding.markOverrides_eq (h : e.MarksOverriding as) : e.markOverrides as = e := by
  have hattributes : e.attributes.map (fun a => { a with isOverriding := as.any a.overrides }) =
      e.attributes := by
    conv_rhs => rw [← List.map_id e.attributes]
    refine List.map_congr_left fun a ha => ?_
    have hflag : a.isOverriding = as.any a.overrides := by
      rw [Bool.eq_iff_iff, h.attributes a ha, a.any_overrides_iff]
    rw [← hflag]
    rfl
  have hoperations : e.operations.map (fun o => { o with isOverriding := as.any o.overrides }) =
      e.operations := by
    conv_rhs => rw [← List.map_id e.operations]
    refine List.map_congr_left fun o ho => ?_
    have hflag : o.isOverriding = as.any o.overrides := by
      rw [Bool.eq_iff_iff, h.operations o ho, o.any_overrides_iff]
    rw [← hflag]
    rfl
  unfold markOverrides
  rw [hattributes, hoperations]

/-- The right flags on an entity are those that marking puts there. -/
theorem MarksOverriding.eq_markOverrides (h : e'.MarksOverriding as)
    (heq : e'.unmarked = e.unmarked) : e' = e.markOverrides as :=
  calc
    e' = e'.markOverrides as := h.markOverrides_eq.symm
    _ = e'.unmarked.markOverrides as := (e'.markOverrides_unmarked as).symm
    _ = e.unmarked.markOverrides as := by rw [heq]
    _ = e.markOverrides as := e.markOverrides_unmarked as

end Entity

namespace Model

variable {m n : Model}

/-! ### Flags of models -/

/-- The model without the flags of members. -/
def unmarked (m : Model) : Model :=
  m.mapEntities Entity.unmarked

/-- The model `n` is the model `m` up to flags, and of each entity just those members are marked
that override a member of an ancestor. -/
structure MarksExactly (m n : Model) : Prop where
  unmarked_eq : n.unmarked = m.unmarked
  flags : List.Forall₂ (fun e e' => ∃ as, m.ancestors e = .ok as ∧ e'.MarksOverriding as)
    m.entities n.entities

/-- A model whose entities have been marked in some way is marked as if they had not been. -/
theorem markOverrides_mapEntities (m : Model) (f : Entity → List Entity) :
    (m.mapEntities fun e => e.markOverrides (f e)).markOverrides = m.markOverrides := by
  have hentity (e : Entity) :
      ((m.mapEntities fun e => e.markOverrides (f e)).ancestors (e.markOverrides (f e))).map
          (e.markOverrides (f e)).markOverrides =
        (m.ancestors e).map e.markOverrides := by
    rw [ancestors_map (keepsLine_markOverrides f) (m := m) rfl]
    cases m.ancestors e with
    | error err => rfl
    | ok as =>
      refine congrArg Except.ok ?_
      rw [Entity.markOverrides_markOverrides, Entity.markOverrides_map]
  have hentities : ((m.mapEntities fun e => e.markOverrides (f e)).entities.mapM fun e =>
        ((m.mapEntities fun e => e.markOverrides (f e)).ancestors e).map e.markOverrides) =
      m.entities.mapM fun e => (m.ancestors e).map e.markOverrides := by
    show (m.entities.map _).mapM _ = _
    rw [List.mapM_map]
    exact congrArg (fun mark => m.entities.mapM mark) (funext hentity)
  rw [markOverrides_eq, markOverrides_eq, hentities]
  rfl

theorem markOverrides_unmarked (m : Model) : m.unmarked.markOverrides = m.markOverrides :=
  m.markOverrides_mapEntities fun _ => []

/-- To mark a model again leaves it as it is. -/
theorem markOverrides_of_markOverrides (h : m.markOverrides = .ok n) :
    n.markOverrides = .ok n := by
  obtain ⟨-, rfl⟩ := markOverrides_eq_ok_iff.1 h
  exact (m.markOverrides_mapEntities _).trans h

theorem unmarked_mapEntities_marked (m : Model) :
    (m.mapEntities m.marked).unmarked = m.unmarked := by
  refine ext_parts rfl ?_ rfl
  show (m.entities.map m.marked).map Entity.unmarked = m.entities.map Entity.unmarked
  rw [List.map_map]
  exact List.map_congr_left fun e _ => e.unmarked_markOverrides _

/-- Marking succeeds just when there is a model with the right flags, which is the one it makes. -/
theorem markOverrides_eq_ok_iff_marksExactly : m.markOverrides = .ok n ↔ m.MarksExactly n := by
  rw [markOverrides_eq_ok_iff]
  constructor
  · rintro ⟨hall, rfl⟩
    refine ⟨m.unmarked_mapEntities_marked, ?_⟩
    show List.Forall₂ _ m.entities (m.entities.map m.marked)
    rw [List.forall₂_map_right_iff, List.forall₂_same]
    intro e he
    obtain ⟨as, has⟩ := hall e he
    refine ⟨as, has, ?_⟩
    rw [marked_of_ancestors has]
    exact e.marksOverriding_markOverrides as
  · rintro ⟨hunmarked, hflags⟩
    constructor
    · intro e he
      obtain ⟨i, hi⟩ := List.mem_iff_getElem?.1 he
      obtain ⟨_, -, as, has, -⟩ := exists_getElem?_of_forall₂ hflags hi
      exact ⟨as, has⟩
    · -- Entities at one position agree up to flags, and the flags of both are the right ones.
      have hframe : List.Forall₂ (fun e e' => e'.unmarked = e.unmarked) m.entities n.entities := by
        have heq : n.entities.map Entity.unmarked = m.entities.map Entity.unmarked :=
          congrArg Model.entities hunmarked
        rw [← List.forall₂_eq_eq_eq, List.forall₂_map_left_iff, List.forall₂_map_right_iff] at heq
        exact heq.flip
      have hentities : n.entities = m.entities.map m.marked := by
        rw [← List.forall₂_eq_eq_eq, List.forall₂_map_right_iff]
        refine (hframe.mp ?_ hflags).flip
        rintro e e' heq ⟨as, has, hright⟩
        show e' = m.marked e
        rw [marked_of_ancestors has]
        exact hright.eq_markOverrides heq
      have hpackages : n.unmarked.packages = m.unmarked.packages := by rw [hunmarked]
      have himports : n.unmarked.imports = m.unmarked.imports := by rw [hunmarked]
      exact ext_parts hpackages hentities himports

/-! ### The stage -/

/-- Overriding members are found just when the ancestors of every entity are.  The result is the
model with the right flags and otherwise as it was; it is the same whatever flags were there before,
and stays as it is when overriding members are found once more. -/
theorem analyzeOverrides_exact (m : Model) :
    ((∃ n, m.analyzeOverrides.result = .ok n) ↔
        ∀ e ∈ m.entities, ∃ as, m.ancestors e = .ok as) ∧
      (∀ n, m.analyzeOverrides.result = .ok n ↔ m.MarksExactly n) ∧
      (∀ k : Model, k.unmarked = m.unmarked → k.analyzeOverrides = m.analyzeOverrides) ∧
      ∀ n, m.analyzeOverrides.result = .ok n → n.analyzeOverrides.result = .ok n := by
  simp only [result_analyzeOverrides]
  refine ⟨?_, fun n => markOverrides_eq_ok_iff_marksExactly, ?_,
    fun n => markOverrides_of_markOverrides⟩
  · simp only [markOverrides_eq_ok_iff, exists_and_left, exists_eq, and_true]
  · intro k hk
    have hmark : k.markOverrides = m.markOverrides := by
      rw [← markOverrides_unmarked, hk, markOverrides_unmarked]
    rw [analyzeOverrides, hmark, analyzeOverrides]

end Model

end ClassDiagram
