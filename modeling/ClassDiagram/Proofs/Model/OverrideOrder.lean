import ClassDiagram.Proofs.Model.Overrides
import Mathlib.Data.List.Nodup

/-!
# Overriding members and the order of entities

A reference leads to the first entity that bears it and can be inherited from.  Where no two such
entities share a reference (`Model.DistinctBases`), there is one candidate at most, so that the
order of the entities does not matter: every entity has the same ancestors, and gets the same flags,
in whatever order the entities stand (`Model.analyzeOverrides_of_perm`).
-/

namespace ClassDiagram

/-- The first element with a property is the same in every order if only one element has it. -/
theorem find?_eq_of_perm {α : Type} {l l' : List α} {p : α → Bool} (h : l.Perm l')
    (hunique : ∀ a ∈ l, ∀ b ∈ l, p a = true → p b = true → a = b) : l.find? p = l'.find? p := by
  cases hl' : l'.find? p with
  | none =>
    rw [List.find?_eq_none] at hl' ⊢
    intro a ha
    exact hl' a (h.mem_iff.1 ha)
  | some b =>
    have hb := List.find?_some hl'
    have hmem := h.mem_iff.2 (List.mem_of_find?_eq_some hl')
    cases hl : l.find? p with
    | none => exact absurd hb (List.find?_eq_none.1 hl b hmem)
    | some a =>
      rw [hunique a (List.mem_of_find?_eq_some hl) b hmem (List.find?_some hl) hb]

namespace Model

variable {m : Model} {es : List Entity}

/-- No two entities of the model that can be inherited from share a reference. -/
def DistinctBases (m : Model) : Prop :=
  ((m.entities.filter fun e => e.kind.isInheritable).map Entity.reference).Nodup

instance : DecidablePred DistinctBases := fun _ =>
  inferInstanceAs (Decidable (List.Nodup _))

theorem resolveAncestor_of_perm (hm : m.DistinctBases) (h : es.Perm m.entities) (r : EntityRef) :
    (m.withEntities es).resolveAncestor r = m.resolveAncestor r := by
  symm
  apply find?_eq_of_perm h.symm
  intro a ha b hb hpa hpb
  simp only [Bool.and_eq_true, decide_eq_true_eq] at hpa hpb
  exact List.inj_on_of_nodup_map hm (List.mem_filter.2 ⟨ha, hpa.2⟩)
    (List.mem_filter.2 ⟨hb, hpb.2⟩) (hpa.1.trans hpb.1.symm)

theorem marked_of_perm (hm : m.DistinctBases) (h : es.Perm m.entities) :
    (m.withEntities es).marked = m.marked := by
  have hancestors := ancestors_congr (resolveAncestor_of_perm hm h)
  funext e
  rw [marked, hancestors, marked]

/-- Overriding members are found in every order of the entities or in none, and an entity becomes
the same wherever it stands. -/
theorem analyzeOverrides_of_perm (hm : m.DistinctBases) (h : es.Perm m.entities) :
    ((∃ n, m.analyzeOverrides.result = .ok n) ↔
        ∃ n, (m.withEntities es).analyzeOverrides.result = .ok n) ∧
      ∀ n n', m.analyzeOverrides.result = .ok n →
        (m.withEntities es).analyzeOverrides.result = .ok n' →
        ∀ (i j : Nat) e, m.entities[i]? = some e → es[j]? = some e →
          ∃ e', n.entities[i]? = some e' ∧ n'.entities[j]? = some e' := by
  have hancestors := ancestors_congr (resolveAncestor_of_perm hm h)
  have hall : (∀ e ∈ m.entities, ∃ as, m.ancestors e = .ok as) ↔
      ∀ e ∈ es, ∃ as, (m.withEntities es).ancestors e = .ok as := by
    rw [hancestors]
    exact forall_congr' fun e => by rw [h.mem_iff]
  simp only [result_analyzeOverrides, markOverrides_eq_ok_iff]
  constructor
  · simp only [exists_and_left, exists_eq, and_true]
    exact hall
  · rintro n n' ⟨-, rfl⟩ ⟨-, rfl⟩ i j e hi hj
    refine ⟨m.marked e, ?_, ?_⟩
    · show (m.entities.map m.marked)[i]? = _
      rw [List.getElem?_map, hi, Option.map_some]
    · show (es.map (m.withEntities es).marked)[j]? = _
      rw [marked_of_perm hm h, List.getElem?_map, hj, Option.map_some]

/-! ### Orders with a date -/

/-- An entity with a name and nothing else. -/
def bareEntity (id name : String) (kind : EntityKind) : Entity where
  id := id
  reference := .unqualified name
  geometry := ⟨0, 0, 0, 0⟩
  kind := kind
  isMutable := false
  isImmutable := false
  superclass := none
  mixins := []
  attributes := []
  operations := []
  hasCompanion := false

/-- The attribute `date`, without a type. -/
def dateAttribute : Attribute where
  name := "date"
  type := none
  visibility := .pub
  isVal := true
  default := none
  isLazy := false
  isOverriding := false
  isClassScope := false

/-- A rush order is an order, and an order has a date, which rush orders have on their own.  An
object stands beside the class of orders. -/
def datedOrders : Model :=
  ofParts []
    [{ bareEntity "O0" "RushOrder" .cls with
        superclass := some (.user (.unqualified "Order"))
        attributes := [dateAttribute] },
      { bareEntity "O1" "Order" .cls with mixins := [.user (.unqualified "Dated")] },
      bareEntity "O2" "Order" .object,
      { bareEntity "O3" "Dated" .trait with attributes := [dateAttribute] }] .empty

/-- The flags of the attributes of the entities. -/
def attributeFlags (m : Model) : List (List Bool) :=
  m.entities.map fun e => e.attributes.map Attribute.isOverriding

theorem analyzeOverrides_of_reversedOrders :
    datedOrders.DistinctBases ∧ datedOrders.entities.reverse.Perm datedOrders.entities ∧
      ∃ n n', datedOrders.analyzeOverrides.result = .ok n ∧
        (datedOrders.withEntities datedOrders.entities.reverse).analyzeOverrides.result = .ok n' ∧
        n.attributeFlags = [[true], [], [], [false]] ∧
        ∀ (i j : Nat) e, datedOrders.entities[i]? = some e →
          datedOrders.entities.reverse[j]? = some e →
          ∃ e', n.entities[i]? = some e' ∧ n'.entities[j]? = some e' := by
  have hdistinct : datedOrders.DistinctBases := by decide
  have hperm := datedOrders.entities.reverse_perm
  obtain ⟨hiff, hsame⟩ := analyzeOverrides_of_perm hdistinct hperm
  have hflags : datedOrders.analyzeOverrides.result.toOption.map attributeFlags =
      some [[true], [], [], [false]] := by decide +kernel
  obtain ⟨n, hn, hflags⟩ := exists_eq_ok_of_toOption_map hflags
  obtain ⟨n', hn'⟩ := hiff.1 ⟨n, hn⟩
  exact ⟨hdistinct, hperm, n, n', hn, hn', hflags, hsame n n' hn hn'⟩

end Model

end ClassDiagram
