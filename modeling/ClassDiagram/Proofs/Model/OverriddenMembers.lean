import ClassDiagram.Proofs.Model.Cycles
import ClassDiagram.Proofs.Model.OverrideFlags
import ClassDiagram.Proofs.Model.OverrideOrder
import ClassDiagram.Proofs.Model.Warnings

/-!
# Whose members are overridden

The walk along superclasses never comes back to the entity that it starts from.  The mixins on the
way are looked up without such a check, so that an entity may be found among its own ancestors, but
in one way only: a realization leads to it from itself or from an entity that its superclasses lead
to (`Model.RealizesItself`).  Apart from these entities, a member is marked just when it overrides a
member of another entity (`Model.overridesOthers_of_ofDrawing`); an entity that realizes itself
overrides all its own members.
-/

namespace ClassDiagram

open Relation

/-- A realization with the stereotype of the edge adds a mixin: it is empty or `mixin`. -/
def Node.AddsMixin (edge : Node) : Prop :=
  edge.edgeStereotype = .ok "" ∨ edge.edgeStereotype = .ok "mixin"

theorem Node.addsMixin_iff {edge : Node} {stereotype : String}
    (hs : edge.edgeStereotype = .ok stereotype) :
    edge.AddsMixin ↔ edge.realizationWarning? = none := by
  simp [AddsMixin, realizationWarning?, edgeWarning?, hs, or_iff_not_imp_left]

theorem Attribute.overridesMember_of_mem {a : Attribute} {e : Entity} (ha : a ∈ e.attributes) :
    a.OverridesMember e :=
  .inl ⟨a, ha, rfl⟩

theorem Operation.overridesMember_of_mem {o : Operation} {e : Entity} (ho : o ∈ e.operations) :
    o.OverridesMember e :=
  .inl ⟨o, ho, rfl, rfl, rfl⟩

theorem Entity.exists_mem_mixinRefs_iff {e : Entity} {p : EntityRef → Prop} :
    (∃ r ∈ e.mixinRefs, p r) ↔ ∃ t ∈ e.mixins, ∃ r, t.reference? = some r ∧ p r := by
  simp only [mixinRefs, List.mem_filterMap]
  constructor
  · rintro ⟨r, ⟨t, ht, hr⟩, hp⟩
    exact ⟨t, ht, r, hr, hp⟩
  · rintro ⟨t, ht, r, hr, hp⟩
    exact ⟨r, ⟨t, ht, hr⟩, hp⟩

namespace Model

variable {m : Model} {i j : Nat} {e x : Entity} {as : List Entity}

/-! ### Ancestors and their positions -/

/-- The search for the ancestors of `e` finds the entity `x`, which stands at position `j`. -/
structure FindsAncestor (m : Model) (e : Entity) (j : Nat) (x : Entity) : Prop where
  mem : ∃ as, m.ancestors e = .ok as ∧ x ∈ as
  getElem? : m.entities[j]? = some x
  ancestorAt? : m.ancestorAt? x.reference = some j

/-- Every ancestor stands where its reference leads to. -/
theorem exists_findsAncestor (has : m.ancestors e = .ok as) (hx : x ∈ as) :
    ∃ j, m.FindsAncestor e j x := by
  obtain ⟨r, hr⟩ := exists_resolveAncestor_of_mem has hx
  obtain ⟨j, hat, hj⟩ := exists_ancestorAt?_of_resolveAncestor hr
  rw [← reference_of_resolveAncestor hr] at hat
  exact ⟨j, ⟨as, has, hx⟩, hj, hat⟩

/-- Of all ancestors, one is at the position of the entity itself, or one is elsewhere. -/
theorem exists_findsAncestor_iff (hi : m.entities[i]? = some e) (has : m.ancestors e = .ok as)
    {p : Entity → Prop} :
    (∃ x ∈ as, p x) ↔
      (m.FindsAncestor e i e ∧ p e) ∨ ∃ j ≠ i, ∃ x, m.FindsAncestor e j x ∧ p x := by
  have hmem {j : Nat} {x : Entity} (h : m.FindsAncestor e j x) : x ∈ as := by
    obtain ⟨as', has', hx⟩ := h.mem
    obtain rfl := Except.ok.inj (has.symm.trans has')
    exact hx
  constructor
  · rintro ⟨x, hx, hp⟩
    obtain ⟨j, hj⟩ := exists_findsAncestor has hx
    by_cases hij : j = i
    · subst hij
      obtain rfl := Option.some.inj (hi.symm.trans hj.getElem?)
      exact .inl ⟨hj, hp⟩
    · exact .inr ⟨j, hij, x, hj, hp⟩
  · rintro (⟨h, hp⟩ | ⟨j, -, x, h, hp⟩)
    · exact ⟨e, hmem h, hp⟩
    · exact ⟨x, hmem h, hp⟩

/-! ### Ways back to an entity -/

namespace Walk

variable {seen : List EntityRef} {rest : List Entity}

/-- No entity that a walk leads to has a reference that had been met before. -/
theorem reference_not_mem (h : m.Walk seen e rest) (hx : x ∈ rest) : x.reference ∉ seen := by
  induction h with
  | stop => cases hx
  | step _ hnew hp _ ih =>
    rcases List.mem_cons.1 hx with rfl | hx
    · rwa [reference_of_resolveAncestor hp]
    · exact fun hmem => ih hx (List.mem_append_left _ hmem)

/-- Superclasses lead from the first entity of a walk to all others. -/
theorem exists_reflTransGen (h : m.Walk seen e rest) (hi : m.entities[i]? = some e)
    (hx : x ∈ e :: rest) : ∃ j, ReflTransGen m.LeadsTo i j ∧ m.entities[j]? = some x := by
  induction h generalizing i with
  | stop =>
    obtain rfl := List.mem_singleton.1 hx
    exact ⟨i, .refl, hi⟩
  | step hr _ hp _ ih =>
    rcases List.mem_cons.1 hx with rfl | hx
    · exact ⟨i, .refl, hi⟩
    · obtain ⟨k, hat, hk⟩ := exists_ancestorAt?_of_resolveAncestor hp
      obtain ⟨j, hkj, hj⟩ := ih hk hx
      exact ⟨j, .head ⟨_, _, hi, hr, hat⟩ hkj, hj⟩

end Walk

/-- Superclasses lead from the entity at position `i` to one with a mixin that is found at `i`. -/
def MixesInItself (m : Model) (i : Nat) : Prop :=
  ∃ j b, ReflTransGen m.LeadsTo i j ∧ m.entities[j]? = some b ∧
    ∃ r ∈ b.mixinRefs, m.ancestorAt? r = some i

/-- An entity is among its own ancestors because of a mixin, and for no other reason. -/
theorem findsAncestor_self_iff (hi : m.entities[i]? = some e) (has : m.ancestors e = .ok as) :
    m.FindsAncestor e i e ↔ m.MixesInItself i := by
  obtain ⟨rest, h⟩ := m.exists_walk [e.reference] e
  obtain ⟨hend, rfl⟩ := h.ancestorsFrom_eq_ok_iff.1 has
  have hmixins : (∃ b ∈ e :: rest, e ∈ m.mixinsOf b) ↔
      e ∈ m.mixinsOf e ++ rest.flatMap fun a => a :: m.mixinsOf a := by
    -- The superclasses on the walk have other references than the entity.
    have hrest : e ∉ rest := fun he => h.reference_not_mem he List.mem_cons_self
    rw [List.exists_mem_cons_iff]
    simp only [List.mem_append, List.mem_flatMap, List.mem_cons]
    refine or_congr_right (exists_congr fun b => and_congr_right fun hb => ?_)
    exact (or_iff_right fun heq : e = b => hrest (heq ▸ hb)).symm
  constructor
  · rintro ⟨⟨as', has', hmem⟩, -, hat⟩
    obtain rfl := Except.ok.inj (has.symm.trans has')
    obtain ⟨b, hb, hmixin⟩ := hmixins.2 hmem
    obtain ⟨r, hr, hresolve⟩ := List.mem_filterMap.1 hmixin
    obtain ⟨j, hij, hj⟩ := h.exists_reflTransGen hi hb
    exact ⟨j, b, hij, hj, r, hr, reference_of_resolveAncestor hresolve ▸ hat⟩
  · rintro ⟨j, b, hij, hj, r, hr, hat⟩
    obtain ⟨b', hb, hj'⟩ := h.exists_mem_of_reflTransGen hend hi hij
    obtain rfl := Option.some.inj (hj.symm.trans hj')
    obtain ⟨e', hi', hresolve⟩ := exists_resolveAncestor_of_ancestorAt? hat
    obtain rfl := Option.some.inj (hi.symm.trans hi')
    have hmixin : e ∈ m.mixinsOf b := List.mem_filterMap.2 ⟨r, hr, hresolve⟩
    exact ⟨⟨_, has, hmixins.1 ⟨b, hb, hmixin⟩⟩, hi, reference_of_resolveAncestor hresolve ▸ hat⟩

/-! ### Realizations -/

variable {drawing : Node} {imports : ImportTable} {d : Model} {r : EdgeReading}

/-- A realization of the drawing leads from the entity at position `j` to one of which the reference
leads to position `i`. -/
def RealizesAt (drawing : Node) (m : Model) (j i : Nat) : Prop :=
  ∃ edge ∈ drawing.query "object" "UML - Realizes", edge.AddsMixin ∧ m.endpoint edge 1 = .ok j ∧
    ∃ k p, m.endpoint edge 0 = .ok k ∧ m.entities[k]? = some p ∧ m.ancestorAt? p.reference = some i

/-- The entity at position `i` is realized by itself or by an entity that its superclasses lead
to. -/
def RealizesItself (drawing : Node) (m : Model) (i : Nat) : Prop :=
  ∃ j, ReflTransGen m.LeadsTo i j ∧ m.RealizesAt drawing j i

namespace Completes

variable (h : d.Completes drawing r m) (hd : (entitiesOfDrawing drawing imports).result = .ok d)

include h

/-- The stereotypes of all realizations have been read. -/
theorem addsMixin_iff {edge : Node} (hedge : edge ∈ drawing.query "object" "UML - Realizes") :
    edge.AddsMixin ↔ edge.realizationWarning? = none := by
  obtain ⟨ends, hends, -⟩ := h.reads.realizations
  obtain ⟨x, -, hx⟩ := exists_of_forall₂_right hends.flip hedge
  obtain ⟨stereotype, hs, -⟩ := Traced.result_bind_eq_ok_iff.1 hx
  rw [Traced.result_liftM_eq_ok_iff] at hs
  exact Node.addsMixin_iff hs

include hd

/-- The mixins of an entity are those of the realizations that start from it. -/
theorem realizesAt_iff {b : Entity} (hj : m.entities[j]? = some b) :
    m.RealizesAt drawing j i ↔ ∃ r ∈ b.mixinRefs, m.ancestorAt? r = some i := by
  -- An edge leads to a position just when the mixin that it adds does.
  have htarget : ∀ (edge : Node) (t : TypeExpr),
      (∃ k p, m.endpoint edge 0 = .ok k ∧ m.entities[k]? = some p ∧ t = .user p.reference) →
      ((∃ k p, m.endpoint edge 0 = .ok k ∧ m.entities[k]? = some p ∧
          m.ancestorAt? p.reference = some i) ↔
        ∃ r, t.reference? = some r ∧ m.ancestorAt? r = some i) := by
    rintro edge t ⟨k, p, hk, hp, rfl⟩
    simp [hk, hp, TypeExpr.reference?]
  rw [Entity.exists_mem_mixinRefs_iff, ← exists_mem_iff_of_forall₂ (h.forall₂_mixins hd hj) htarget,
    RealizesAt]
  refine exists_congr fun edge => ?_
  rw [List.mem_filter, and_assoc]
  refine and_congr_right fun hedge => ?_
  rw [h.addsMixin_iff hedge, decide_eq_true_eq, and_assoc, and_left_comm]

theorem realizesItself_iff : m.RealizesItself drawing i ↔ m.MixesInItself i := by
  constructor
  · rintro ⟨j, hij, hrealizes⟩
    have ⟨edge, _, _, hj, _⟩ := hrealizes
    have hb := List.getElem?_eq_getElem (lt_length_of_endpoint hj)
    exact ⟨j, _, hij, hb, (h.realizesAt_iff hd hb).1 hrealizes⟩
  · rintro ⟨j, b, hij, hb, hmixin⟩
    exact ⟨j, hij, (h.realizesAt_iff hd hb).2 hmixin⟩

/-- What holds of an entity holds of one of its ancestors just when the entity realizes itself or it
holds of another ancestor. -/
theorem exists_mem_ancestors_iff (hi : m.entities[i]? = some e) (has : m.ancestors e = .ok as)
    {p : Entity → Prop} (hp : p e) :
    (∃ x ∈ as, p x) ↔
      m.RealizesItself drawing i ∨ ∃ j ≠ i, ∃ x, m.FindsAncestor e j x ∧ p x := by
  rw [exists_findsAncestor_iff hi has, and_iff_left hp, findsAncestor_self_iff hi has,
    h.realizesItself_iff hd]

end Completes

/-! ### Marked members -/

/-- A member is marked just when its entity realizes itself, or when it overrides a member of an
ancestor at another position. -/
structure OverridesOthers (drawing : Node) (m : Model) : Prop where
  attributes : ∀ i e, m.entities[i]? = some e → ∀ a ∈ e.attributes, a.isOverriding = true ↔
    m.RealizesItself drawing i ∨ ∃ j ≠ i, ∃ x, m.FindsAncestor e j x ∧ a.OverridesMember x
  operations : ∀ i e, m.entities[i]? = some e → ∀ o ∈ e.operations, o.isOverriding = true ↔
    m.RealizesItself drawing i ∨ ∃ j ≠ i, ∃ x, m.FindsAncestor e j x ∧ o.OverridesMember x

/-- In the model of a drawing a member is marked for the members of other entities.  The one
exception is an entity that realizes itself, which is among its own ancestors. -/
theorem overridesOthers_of_ofDrawing (h : (ofDrawing drawing imports).result = .ok m) :
    m.OverridesOthers drawing := by
  obtain ⟨d, r, hd, hm, -⟩ := exists_completion_of_ofDrawing h
  constructor
  · intro i e hi a ha
    obtain ⟨as, hmarked⟩ := exists_isMarked_of_markOverrides hm.marked (List.mem_of_getElem? hi)
    have hself := Attribute.overridesMember_of_mem ha
    rw [hmarked.attributes a ha, Attribute.any_overrides_iff,
      hm.exists_mem_ancestors_iff hd hi hmarked.ancestors_eq hself]
  · intro i e hi o ho
    obtain ⟨as, hmarked⟩ := exists_isMarked_of_markOverrides hm.marked (List.mem_of_getElem? hi)
    have hself := Operation.overridesMember_of_mem ho
    rw [hmarked.operations o ho, Operation.any_overrides_iff,
      hm.exists_mem_ancestors_iff hd hi hmarked.ancestors_eq hself]

/-- A class object with a date. -/
def datedClass (id name : String) : Node :=
  (classObject id name).addChild (.namedRecords "attributes" [attributeRecord "date" false])

/-- A rush order is an order, an order is dated, and what is dated is dated. -/
def datedDrawing : Node :=
  { Node.ofKind "diagram" with
    children := [
      datedClass "O0" "RushOrder", classObject "O1" "Order", datedClass "O2" "Dated",
      edgeBetween "UML - Generalization" "O3" "O1" "O0",
      edgeBetween "UML - Realizes" "O4" "O2" "O1",
      edgeBetween "UML - Realizes" "O5" "O2" "O2"] }

/-- The date of a rush order overrides that of another entity, and the date of what is dated
overrides itself. -/
theorem overridesOthers_of_datedDrawing :
    ∃ m, (ofDrawing datedDrawing .empty).result = .ok m ∧ m.OverridesOthers datedDrawing ∧
      m.attributeFlags = [[true], [], [true]] := by
  have hmodel : (ofDrawing datedDrawing .empty).result.toOption.map attributeFlags =
      some [[true], [], [true]] := by decide +kernel
  obtain ⟨m, hm, hflags⟩ := exists_eq_ok_of_toOption_map hmodel
  exact ⟨m, hm, overridesOthers_of_ofDrawing hm, hflags⟩

/-- What is dated is dated, and nothing else is drawn. -/
def selfDatedDrawing : Node :=
  { Node.ofKind "diagram" with
    children := [datedClass "O0" "Dated", edgeBetween "UML - Realizes" "O1" "O0" "O0"] }

/-- The date is marked, although there is no other entity that it could override a member of. -/
theorem overrides_itself :
    ∃ m e a, (ofDrawing selfDatedDrawing .empty).result = .ok m ∧ m.entities[0]? = some e ∧
      a ∈ e.attributes ∧ a.isOverriding = true ∧ ∀ j x, m.FindsAncestor e j x → j = 0 := by
  have hmodel : (ofDrawing selfDatedDrawing .empty).result.toOption.map attributeFlags =
      some [[true]] := by decide +kernel
  obtain ⟨m, hm, hflags⟩ := exists_eq_ok_of_toOption_map hmodel
  obtain ⟨e, he, hattributes⟩ := exists_getElem?_of_map_eq hflags (i := 0) rfl
  obtain ⟨a, ha, hflag⟩ := exists_getElem?_of_map_eq hattributes (i := 0) rfl
  have hlength : m.entities.length = 1 := by
    simpa [attributeFlags] using congrArg List.length hflags
  refine ⟨m, e, a, hm, he, List.mem_of_getElem? ha, hflag, ?_⟩
  intro j x hx
  obtain ⟨hj, -⟩ := List.getElem?_eq_some_iff.1 hx.getElem?
  omega

end Model

end ClassDiagram
