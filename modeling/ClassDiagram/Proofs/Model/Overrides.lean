import ClassDiagram.Override
import ClassDiagram.Proofs.Model.Ancestry
import ClassDiagram.Proofs.Model.Qualified
import ClassDiagram.Proofs.Reading.Class

/-!
# Overriding and qualified types

Marking the overriding members of a model is a change of each entity by itself, once the walk from
every entity has come to an end (`markOverrides_eq_ok_iff`).  Operations are compared by the types
of their parameters and results; as these are written without packages, giving packages to them by
name neither makes two of them equal nor tells two of them apart (`mapLeaves_eq_mapLeaves_iff`).  So
members override each other in a qualified model just when they did before
(`markOverrides_mapTypes`).
-/

namespace ClassDiagram

/-! ### Types without packages -/

section Names

variable {f : EntityRef → EntityRef} (hf : ∀ r, (f r).name = r.name)

include hf

/-- The names in a type are left when its references have got packages. -/
theorem mapLeaves_unqualified {t : TypeExpr} (ht : t.Unqualified) :
    (t.mapLeaves f).mapLeaves (fun r => .unqualified r.name) = t := by
  rw [TypeExpr.mapLeaves_mapLeaves]
  apply TypeExpr.mapLeaves_eq_self
  rintro ⟨name, package⟩ hr
  obtain rfl : package = "" := ht _ hr
  rw [hf]
  rfl

theorem mapLeaves_eq_mapLeaves_iff {s t : TypeExpr} (hs : s.Unqualified) (ht : t.Unqualified) :
    s.mapLeaves f = t.mapLeaves f ↔ s = t := by
  refine ⟨fun h => ?_, fun h => by rw [h]⟩
  rw [← mapLeaves_unqualified hf hs, h, mapLeaves_unqualified hf ht]

theorem map_mapLeaves_eq_iff {ss ts : List TypeExpr} (hs : ∀ s ∈ ss, s.Unqualified)
    (ht : ∀ t ∈ ts, t.Unqualified) :
    ss.map (TypeExpr.mapLeaves f) = ts.map (TypeExpr.mapLeaves f) ↔ ss = ts := by
  have hback : ∀ us : List TypeExpr, (∀ u ∈ us, u.Unqualified) →
      (us.map (TypeExpr.mapLeaves f)).map (TypeExpr.mapLeaves fun r => .unqualified r.name) =
        us := by
    intro us hus
    rw [List.map_map]
    conv_rhs => rw [← List.map_id us]
    exact List.map_congr_left fun u hu => mapLeaves_unqualified hf (hus u hu)
  refine ⟨fun h => ?_, fun h => by rw [h]⟩
  rw [← hback ss hs, h, hback ts ht]

theorem option_map_mapLeaves_eq_iff {s t : Option TypeExpr} (hs : ∀ u ∈ s, u.Unqualified)
    (ht : ∀ u ∈ t, u.Unqualified) :
    s.map (TypeExpr.mapLeaves f) = t.map (TypeExpr.mapLeaves f) ↔ s = t := by
  cases s with
  | none => cases t <;> simp
  | some s =>
    cases t with
    | none => simp
    | some t =>
      rw [Option.map_some, Option.map_some, Option.some.injEq, Option.some.injEq]
      exact mapLeaves_eq_mapLeaves_iff hf (hs s rfl) (ht t rfl)

end Names

/-! ### Overriding -/

theorem Operation.signature_mapTypes (f : EntityRef → EntityRef) (o : Operation) :
    (o.mapTypes f).signature = o.signature.map (TypeExpr.mapLeaves f) := by
  simp [signature, mapTypes, Parameter.mapTypes]

/-- Attributes are compared by name, whatever their types are. -/
theorem Attribute.overrides_mapTypes (f : EntityRef → EntityRef) (a : Attribute) (x : Entity) :
    (a.mapTypes f).overrides (x.mapTypes f) = a.overrides x := by
  have hempty : ∀ o : Operation, (o.mapTypes f).parameters.isEmpty = o.parameters.isEmpty :=
    fun o => by simp [Operation.mapTypes]
  show ((x.attributes.map _).any _ || (x.operations.map _).any _) = _
  rw [List.any_map, List.any_map]
  simp only [Function.comp_def, hempty]
  rfl

/-- Operations without packages in their types are told apart by the names in them. -/
theorem Operation.overrides_mapTypes {f : EntityRef → EntityRef} (hf : ∀ r, (f r).name = r.name)
    {o : Operation} {x : Entity} (ho : o.Unqualified) (hx : ∀ p ∈ x.operations, p.Unqualified) :
    (o.mapTypes f).overrides (x.mapTypes f) = o.overrides x := by
  have hoperations : (x.operations.map (Operation.mapTypes f)).any (fun p =>
        p.name = (o.mapTypes f).name && p.signature = (o.mapTypes f).signature &&
          p.returnType = (o.mapTypes f).returnType) =
      x.operations.any fun p =>
        p.name = o.name && p.signature = o.signature && p.returnType = o.returnType := by
    rw [List.any_map, Bool.eq_iff_iff, List.any_eq_true, List.any_eq_true]
    refine exists_congr fun p => and_congr_right fun hp => ?_
    obtain ⟨hpsig, hpreturn⟩ := hx p hp
    simp only [Function.comp_apply, signature_mapTypes, Bool.and_eq_true, decide_eq_true_eq,
      map_mapLeaves_eq_iff hf hpsig ho.1]
    exact and_congr Iff.rfl (option_map_mapLeaves_eq_iff hf hpreturn ho.2)
  have hattributes : (x.attributes.map (Attribute.mapTypes f)).any (fun a => a.name = o.name) =
      x.attributes.any fun a => a.name = o.name := by
    rw [List.any_map]
    rfl
  have hempty : (o.mapTypes f).parameters.isEmpty = o.parameters.isEmpty := by
    simp [mapTypes]
  unfold overrides
  rw [hempty]
  exact congrArg₂ _ hoperations (congrArg _ hattributes)

/-- Members are compared by what marking leaves alone. -/
theorem Attribute.overrides_markOverrides (a : Attribute) (x : Entity) (as : List Entity) :
    a.overrides (x.markOverrides as) = a.overrides x := by
  show ((x.attributes.map _).any _ || (x.operations.map _).any _) = _
  rw [List.any_map, List.any_map]
  rfl

theorem Operation.overrides_markOverrides (o : Operation) (x : Entity) (as : List Entity) :
    o.overrides (x.markOverrides as) = o.overrides x := by
  show ((x.operations.map _).any _ || (_ && (x.attributes.map _).any _)) = _
  rw [List.any_map, List.any_map]
  rfl

theorem Attribute.any_overrides_map (a : Attribute) (f : Entity → List Entity) (as : List Entity) :
    (as.map fun x => x.markOverrides (f x)).any a.overrides = as.any a.overrides := by
  rw [List.any_map]
  exact List.any_congr rfl fun x => a.overrides_markOverrides x (f x)

theorem Operation.any_overrides_map (o : Operation) (f : Entity → List Entity) (as : List Entity) :
    (as.map fun x => x.markOverrides (f x)).any o.overrides = as.any o.overrides := by
  rw [List.any_map]
  exact List.any_congr rfl fun x => o.overrides_markOverrides x (f x)

/-- Entities may be marked before or after their references have got packages. -/
theorem Entity.markOverrides_mapTypes {f : EntityRef → EntityRef} (hf : ∀ r, (f r).name = r.name)
    {e : Entity} {as : List Entity} (he : ∀ o ∈ e.operations, o.Unqualified)
    (has : ∀ x ∈ as, ∀ o ∈ x.operations, o.Unqualified) :
    (e.mapTypes f).markOverrides (as.map (Entity.mapTypes f)) =
      (e.markOverrides as).mapTypes f := by
  have hattribute : ∀ a : Attribute,
      (as.map (Entity.mapTypes f)).any (a.mapTypes f).overrides = as.any a.overrides := by
    intro a
    rw [List.any_map]
    exact List.any_congr rfl fun x => a.overrides_mapTypes f x
  have hoperation : ∀ o ∈ e.operations,
      (as.map (Entity.mapTypes f)).any (o.mapTypes f).overrides = as.any o.overrides := by
    intro o ho
    rw [List.any_map, Bool.eq_iff_iff, List.any_eq_true, List.any_eq_true]
    refine exists_congr fun x => and_congr_right fun hx => ?_
    rw [Function.comp_apply, Operation.overrides_mapTypes hf (he o ho) (has x hx)]
  have hattributes : ((e.attributes.map (Attribute.mapTypes f)).map fun a =>
        { a with isOverriding := (as.map (Entity.mapTypes f)).any a.overrides }) =
      (e.attributes.map fun a => { a with isOverriding := as.any a.overrides }).map
        (Attribute.mapTypes f) := by
    rw [List.map_map, List.map_map]
    apply List.map_congr_left
    intro a _
    simp only [Function.comp_apply, hattribute]
    rfl
  have hoperations : ((e.operations.map (Operation.mapTypes f)).map fun o =>
        { o with isOverriding := (as.map (Entity.mapTypes f)).any o.overrides }) =
      (e.operations.map fun o => { o with isOverriding := as.any o.overrides }).map
        (Operation.mapTypes f) := by
    rw [List.map_map, List.map_map]
    apply List.map_congr_left
    intro o ho
    simp only [Function.comp_apply, hoperation o ho]
    rfl
  exact congrArg₂ (fun attributes operations => { e with attributes, operations }) hattributes
    hoperations

theorem keepsLine_mapTypes (f : EntityRef → EntityRef) : KeepsLine (Entity.mapTypes f) :=
  ⟨fun _ => rfl, fun _ => rfl, fun _ => rfl, fun _ => rfl⟩

namespace Model

variable {m n : Model}

/-! ### Marked models -/

theorem result_analyzeOverrides (m : Model) : m.analyzeOverrides.result = m.markOverrides := by
  rw [analyzeOverrides, Traced.result_enter_bind, Traced.result_ofExcept]

/-- An entity of a model with its overriding members marked, if the walk from it ends. -/
def marked (m : Model) (e : Entity) : Entity :=
  e.markOverrides ((m.ancestors e).toOption.getD [])

theorem marked_of_ancestors {e : Entity} {as : List Entity} (has : m.ancestors e = .ok as) :
    m.marked e = e.markOverrides as := by
  rw [marked, has]
  rfl

theorem keepsLine_markOverrides (f : Entity → List Entity) :
    KeepsLine fun e => e.markOverrides (f e) :=
  ⟨fun _ => rfl, fun _ => rfl, fun _ => rfl, fun _ => rfl⟩

/-- Marking succeeds just when the walk from every entity ends, and changes every entity by
itself. -/
theorem markOverrides_eq_ok_iff :
    m.markOverrides = .ok n ↔
      (∀ e ∈ m.entities, ∃ as, m.ancestors e = .ok as) ∧ n = m.mapEntities m.marked := by
  have hmarked : ∀ e e', (m.ancestors e).map e.markOverrides = .ok e' → e' = m.marked e := by
    intro e e' h
    obtain ⟨as, has, rfl⟩ := map_eq_ok_iff.1 h
    exact (marked_of_ancestors has).symm
  have hends : ∀ e, (∃ e', (m.ancestors e).map e.markOverrides = .ok e') ↔
      ∃ as, m.ancestors e = .ok as := by
    intro e
    simp only [map_eq_ok_iff]
    exact ⟨fun ⟨_, as, has, _⟩ => ⟨as, has⟩, fun ⟨as, has⟩ => ⟨_, as, has, rfl⟩⟩
  rw [markOverrides_eq, map_eq_ok_iff]
  simp only [mapM_eq_ok_iff_map hmarked, hends]
  constructor
  · rintro ⟨_, ⟨hall, rfl⟩, rfl⟩
    exact ⟨hall, rfl⟩
  · rintro ⟨hall, rfl⟩
    exact ⟨_, ⟨hall, rfl⟩, rfl⟩

/-- The entity `e` has the ancestors `as`, and just those of its members are marked that override a
member of one of them. -/
structure IsMarked (m : Model) (e : Entity) (as : List Entity) : Prop where
  ancestors_eq : m.ancestors e = .ok as
  attributes : ∀ a ∈ e.attributes, a.isOverriding = as.any a.overrides
  operations : ∀ o ∈ e.operations, o.isOverriding = as.any o.overrides

theorem exists_isMarked_of_markOverrides (h : m.markOverrides = .ok n) {e : Entity}
    (he : e ∈ n.entities) : ∃ as, n.IsMarked e as := by
  obtain ⟨hall, rfl⟩ := markOverrides_eq_ok_iff.1 h
  obtain ⟨e, hmem, rfl⟩ := List.mem_map.1 he
  obtain ⟨as, has⟩ := hall e hmem
  have hmarked := marked_of_ancestors has
  -- The ancestors of the marked model are marked as well, which no comparison of members sees.
  refine ⟨as.map m.marked, ?_, ?_, ?_⟩
  · have hkeeps : KeepsLine m.marked := keepsLine_markOverrides _
    rw [ancestors_map hkeeps (n := m.mapEntities m.marked) rfl, has]
    rfl
  · intro a ha
    rw [hmarked] at ha
    obtain ⟨b, -, rfl⟩ := List.mem_map.1 ha
    exact (b.any_overrides_map _ as).symm
  · intro o ho
    rw [hmarked] at ho
    obtain ⟨p, -, rfl⟩ := List.mem_map.1 ho
    exact (p.any_overrides_map _ as).symm

/-- A model may be marked before or after its references have got packages, with the same outcome
and the same error. -/
theorem markOverrides_mapTypes {f : EntityRef → EntityRef} (hf : ∀ r, (f r).name = r.name)
    (hm : ∀ e ∈ m.entities, ∀ o ∈ e.operations, o.Unqualified) :
    (m.mapTypes f).markOverrides = m.markOverrides.map fun n => n.mapTypes f := by
  have hentity : ∀ e ∈ m.entities,
      ((m.mapTypes f).ancestors (e.mapTypes f)).map (e.mapTypes f).markOverrides =
        ((m.ancestors e).map e.markOverrides).map (Entity.mapTypes f) := by
    intro e he
    rw [ancestors_map (keepsLine_mapTypes f) (n := m.mapTypes f) rfl]
    cases has : m.ancestors e with
    | error err => rfl
    | ok as =>
      have hmem : ∀ x ∈ as, x ∈ m.entities := by
        intro x hx
        obtain ⟨r, hr⟩ := exists_resolveAncestor_of_mem has hx
        exact mem_of_resolveAncestor hr
      exact congrArg Except.ok
        (Entity.markOverrides_mapTypes hf (hm e he) fun x hx => hm x (hmem x hx))
  have hentities : (m.mapTypes f).entities.mapM (fun e =>
        ((m.mapTypes f).ancestors e).map e.markOverrides) =
      (m.entities.mapM fun e => (m.ancestors e).map e.markOverrides).map
        (List.map (Entity.mapTypes f)) := by
    show (m.entities.map _).mapM _ = _
    rw [List.mapM_map]
    exact mapM_eq_map_mapM hentity
  rw [markOverrides_eq, hentities, markOverrides_eq]
  cases m.entities.mapM fun e => (m.ancestors e).map e.markOverrides <;> rfl

end Model

end ClassDiagram
