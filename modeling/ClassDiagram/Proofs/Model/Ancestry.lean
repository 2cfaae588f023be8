import ClassDiagram.Ancestry
import ClassDiagram.Proofs.Outcome.Except
import Mathlib.Data.List.Nodup
import Mathlib.Data.List.Perm.Basic

/-!
# Lines of superclasses

The walk along superclasses looks at the reference, the kind, the superclass and the mixins of an
entity only, so that it goes the same way in a model whose entities have changed in other respects
(`ancestors_map`), and in one where references lead to the same entities (`ancestors_congr`).  Where
it comes to an end, the superclasses make a finite line without repeated references
(`exists_lineage_of_ancestors`).
-/

namespace ClassDiagram

/-- A change of entities that the walk along superclasses does not see. -/
structure KeepsLine (g : Entity → Entity) : Prop where
  reference_eq : ∀ e, (g e).reference = e.reference
  kind_eq : ∀ e, (g e).kind = e.kind
  superclass_eq : ∀ e, (g e).superclass = e.superclass
  mixins_eq : ∀ e, (g e).mixins = e.mixins

namespace Model

variable {m n : Model} {e : Entity}

/-! ### Steps of the walk -/

section Steps

variable {chain : List EntityRef} {r : EntityRef}

theorem ancestorsFrom_of_root (hr : e.superclassRef? = none) :
    m.ancestorsFrom chain e = .ok (m.mixinsOf e) := by
  rw [ancestorsFrom, hr]

theorem ancestorsFrom_of_cycle (hr : e.superclassRef? = some r) (hmem : r ∈ chain) :
    m.ancestorsFrom chain e = .error (.cyclicInheritance (chain ++ [r])) := by
  rw [ancestorsFrom, hr]
  exact dif_pos hmem

theorem ancestorsFrom_of_missing (hr : e.superclassRef? = some r) (hmem : r ∉ chain)
    (hp : m.resolveAncestor r = none) : m.ancestorsFrom chain e = .ok (m.mixinsOf e) := by
  rw [ancestorsFrom, hr]
  dsimp only
  rw [dif_neg hmem]
  split
  · rfl
  · next parent h => simp [h] at hp

theorem ancestorsFrom_of_parent {parent : Entity} (hr : e.superclassRef? = some r)
    (hmem : r ∉ chain) (hp : m.resolveAncestor r = some parent) :
    m.ancestorsFrom chain e =
      (m.ancestorsFrom (chain ++ [r]) parent).map fun rest => m.mixinsOf e ++ parent :: rest := by
  rw [ancestorsFrom, hr]
  dsimp only
  rw [dif_neg hmem]
  split
  · next h => simp [h] at hp
  · next parent' h =>
    obtain rfl : parent' = parent := by simpa [h] using hp
    rfl

end Steps

/-! ### Changed entities -/

section Resolved

variable {g : Entity → Entity} (hg : KeepsLine g)
  (hresolve : ∀ r, n.resolveAncestor r = (m.resolveAncestor r).map g)

include hg hresolve

theorem mixinsOf_of_resolve (e : Entity) : n.mixinsOf (g e) = (m.mixinsOf e).map g := by
  unfold mixinsOf Entity.mixinRefs
  rw [hg.mixins_eq, List.map_filterMap]
  apply List.filterMap_congr
  intro r _
  exact hresolve r

/-- The walk goes the same way in another model where references lead to the changed entities. -/
theorem ancestorsFrom_of_resolve (chain : List EntityRef) (e : Entity) :
    n.ancestorsFrom chain (g e) = (m.ancestorsFrom chain e).map (List.map g) := by
  have href : ∀ e, (g e).superclassRef? = e.superclassRef? := by
    intro e
    rw [Entity.superclassRef?, hg.superclass_eq, Entity.superclassRef?]
  have hmixins := mixinsOf_of_resolve hg hresolve
  -- The walk in `n` takes the case that the walk in `m` takes.
  induction chain, e using ancestorsFrom.induct m with
  | case1 chain e hr =>
    rw [ancestorsFrom_of_root ((href e).trans hr), ancestorsFrom_of_root hr, hmixins]
    rfl
  | case2 chain e r hr hmem =>
    rw [ancestorsFrom_of_cycle ((href e).trans hr) hmem, ancestorsFrom_of_cycle hr hmem]
    rfl
  | case3 chain e r hr hmem hp =>
    have hp' : n.resolveAncestor r = none := by rw [hresolve, hp, Option.map_none]
    rw [ancestorsFrom_of_missing ((href e).trans hr) hmem hp', ancestorsFrom_of_missing hr hmem hp,
      hmixins]
    rfl
  | case4 chain e r hr hmem parent hp ih =>
    have hp' : n.resolveAncestor r = some (g parent) := by rw [hresolve, hp, Option.map_some]
    rw [ancestorsFrom_of_parent ((href e).trans hr) hmem hp', ancestorsFrom_of_parent hr hmem hp,
      ih, hmixins]
    cases m.ancestorsFrom (chain ++ [r]) parent <;> simp [Except.map]

end Resolved

section Changed

variable {g : Entity → Entity} (hg : KeepsLine g) (hn : n.entities = m.entities.map g)

include hg hn

theorem resolveAncestor_map (r : EntityRef) :
    n.resolveAncestor r = (m.resolveAncestor r).map g := by
  unfold resolveAncestor
  rw [hn, List.find?_map]
  congr 2
  funext e
  show (decide ((g e).reference = r) && (g e).kind.isInheritable) = _
  rw [hg.reference_eq, hg.kind_eq]

theorem ancestors_map (e : Entity) : n.ancestors (g e) = (m.ancestors e).map (List.map g) := by
  rw [ancestors, hg.reference_eq, ancestors]
  exact ancestorsFrom_of_resolve hg (resolveAncestor_map hg hn) _ e

end Changed

/-- Ancestors depend on what references lead to, and on nothing else in the model. -/
theorem ancestors_congr (hresolve : ∀ r, n.resolveAncestor r = m.resolveAncestor r) :
    n.ancestors = m.ancestors := by
  have hid : KeepsLine id := ⟨fun _ => rfl, fun _ => rfl, fun _ => rfl, fun _ => rfl⟩
  funext e
  have hmap := ancestorsFrom_of_resolve hid (m := m) (n := n) (by simpa using hresolve)
    [e.reference] e
  rw [id, List.map_id_fun] at hmap
  rw [ancestors, hmap, ancestors]
  cases m.ancestorsFrom [e.reference] e <;> rfl

/-! ### Lines -/

/-- The entity that the superclass of an entity names, if the model has it. -/
def parent? (m : Model) (e : Entity) : Option Entity :=
  e.superclassRef?.bind m.resolveAncestor

/-- The line of an entity: the entity, its superclass, the superclass of that and so on, up to an
entity without a superclass in the model. -/
inductive Lineage (m : Model) : Entity → List Entity → Prop
  | root {e : Entity} (h : m.parent? e = none) : Lineage m e [e]
  | step {e parent : Entity} {line : List Entity} (h : m.parent? e = some parent)
    (hline : Lineage m parent line) : Lineage m e (e :: line)

/-- Only entities that can be inherited from are found on the walk. -/
theorem exists_resolveAncestor_of_mem {chain : List EntityRef} {as : List Entity}
    (h : m.ancestorsFrom chain e = .ok as) {a : Entity} (ha : a ∈ as) :
    ∃ r, m.resolveAncestor r = some a := by
  have hmixins : ∀ e, a ∈ m.mixinsOf e → ∃ r, m.resolveAncestor r = some a := by
    intro e hmem
    obtain ⟨r, -, hr⟩ := List.mem_filterMap.1 hmem
    exact ⟨r, hr⟩
  induction chain, e using ancestorsFrom.induct m generalizing as with
  | case1 chain e hr =>
    rw [ancestorsFrom_of_root hr, Except.ok.injEq] at h
    exact hmixins e (h ▸ ha)
  | case2 chain e r hr hmem =>
    rw [ancestorsFrom_of_cycle hr hmem] at h
    cases h
  | case3 chain e r hr hmem hp =>
    rw [ancestorsFrom_of_missing hr hmem hp, Except.ok.injEq] at h
    exact hmixins e (h ▸ ha)
  | case4 chain e r hr hmem parent hp ih =>
    rw [ancestorsFrom_of_parent hr hmem hp] at h
    obtain ⟨rest, hrest, rfl⟩ := map_eq_ok_iff.1 h
    rcases List.mem_append.1 ha with ha | ha
    · exact hmixins e ha
    · rcases List.mem_cons.1 ha with rfl | ha
      · exact ⟨r, hp⟩
      · exact ih hrest ha

/-- A walk that comes to an end has gone along a line whose references are new to the chain. -/
theorem exists_lineage_of_ancestorsFrom {chain : List EntityRef} {as : List Entity}
    (h : m.ancestorsFrom chain e = .ok as) (hchain : chain.Nodup) :
    ∃ line, m.Lineage e (e :: line) ∧ (chain ++ line.map Entity.reference).Nodup ∧
      ∀ a ∈ line, a ∈ m.entities := by
  induction chain, e using ancestorsFrom.induct m generalizing as with
  | case1 chain e hr =>
    refine ⟨[], .root ?_, by simpa using hchain, by simp⟩
    rw [parent?, hr, Option.bind_none]
  | case2 chain e r hr hmem =>
    rw [ancestorsFrom_of_cycle hr hmem] at h
    cases h
  | case3 chain e r hr hmem hp =>
    refine ⟨[], .root ?_, by simpa using hchain, by simp⟩
    rw [parent?, hr, Option.bind_some, hp]
  | case4 chain e r hr hmem parent hp ih =>
    rw [ancestorsFrom_of_parent hr hmem hp] at h
    obtain ⟨rest, hrest, -⟩ := map_eq_ok_iff.1 h
    -- The walk has gone on, so that the reference is not on the chain.
    have hchain' : (chain ++ [r]).Nodup := by
      rw [← List.concat_eq_append]
      exact hchain.concat hmem
    obtain ⟨line, hline, hnodup, hall⟩ := ih hrest hchain'
    have href := reference_of_resolveAncestor hp
    refine ⟨parent :: line, .step ?_ hline, ?_, ?_⟩
    · rw [parent?, hr, Option.bind_some, hp]
    · simpa [href] using hnodup
    · intro a ha
      rcases List.mem_cons.1 ha with rfl | ha
      · exact mem_of_resolveAncestor hp
      · exact hall a ha

/-- Where the walk from an entity of the model comes to an end, the line of the entity has no
reference twice and is no longer than the list of entities. -/
theorem exists_lineage_of_ancestors {as : List Entity} (h : m.ancestors e = .ok as)
    (he : e ∈ m.entities) :
    ∃ line, m.Lineage e line ∧ (line.map Entity.reference).Nodup ∧
      line.length ≤ m.entities.length := by
  obtain ⟨line, hline, hnodup, hall⟩ := exists_lineage_of_ancestorsFrom h (List.nodup_singleton _)
  have hnodup : ((e :: line).map Entity.reference).Nodup := hnodup
  refine ⟨e :: line, hline, hnodup, ?_⟩
  -- References without repetition among those of the model are at most as many.
  have hsubset : (e :: line).map Entity.reference ⊆ m.entities.map Entity.reference := by
    apply List.map_subset
    exact List.cons_subset.2 ⟨he, hall⟩
  have hle := (List.subperm_of_subset hnodup hsubset).length_le
  rwa [List.length_map, List.length_map] at hle

end Model

end ClassDiagram
