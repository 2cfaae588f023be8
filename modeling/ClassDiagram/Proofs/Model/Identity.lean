import ClassDiagram.Proofs.Model.Companions

/-!
# Ids of entities

The entity of a class object has the id of the object, and the companion that is made of it the same
id with a suffix, even if another class object is drawn with that id (`Node.TakesId`).  If the class
objects have ids of their own, two entities have the same id only if one of them is a companion and
the other is drawn (`Spells.takesId_of_id_eq`).  So the entities have ids of their own just when no
companion takes the id of a class object, and a class object is found by its id just when no
companion before it does (`keepsIds_of_entitiesOfDrawing`).
-/

namespace ClassDiagram

/-- The companion that is made of the class object `b` gets the id of the class object `c`. -/
def Node.TakesId (b c : Node) : Prop :=
  .companion ∈ b.parts ∧ ∃ id, b.id? = some id ∧ c.id? = some (id ++ Part.companion.suffix)

/-! ### Places and ids -/

/-- If class objects have ids of their own, then of the places for one id one is that of the
companion and the other is not. -/
theorem pairwise_entityPlaces {drawing : Node}
    (hids : ((drawing.query "object" "UML - Class").map Node.id?).Nodup) :
    (entityPlaces drawing).Pairwise fun p q =>
      p.1.id? = q.1.id? → ¬ (p.2 = .companion ↔ q.2 = .companion) := by
  rw [List.Nodup, List.pairwise_map] at hids
  rw [entityPlaces, List.pairwise_flatMap]
  constructor
  · intro c _
    rw [List.pairwise_map]
    unfold Node.parts
    split <;> simp
  · refine hids.imp ?_
    intro b c hid p hp q hq heq
    obtain ⟨x, -, rfl⟩ := List.mem_map.1 hp
    obtain ⟨y, -, rfl⟩ := List.mem_map.1 hq
    exact absurd heq hid

namespace Model

variable {drawing : Node} {imports : ImportTable} {d m : Model} {es : List Entity}

namespace Spells

variable (h : Spells drawing es d)

include h

/-- The entity at the place of a part has the id of the class object and the suffix of the part. -/
theorem id_eq {i : Nat} {c : Node} {part : Part} {e : Entity}
    (hi : (entityPlaces drawing)[i]? = some (c, part)) (he : d.entities[i]? = some e) :
    part ∈ c.parts ∧ ∃ id, c.id? = some id ∧ e.id = id ++ part.suffix := by
  obtain ⟨hpart, w, -, hread, he'⟩ := h.exists_entity hi
  obtain rfl : part.of w = e := Option.some.inj (he'.symm.trans he)
  exact ⟨hpart, w.id, hread.id?_eq, w.id_of part⟩

/-- No companion is like a drawn entity, as it is made only where no drawn object has its
reference. -/
theorem ne_companion {i j : Nat} {b c : Node} {part : Part} {e f : Entity}
    (hj : (entityPlaces drawing)[j]? = some (b, .companion)) (hf : d.entities[j]? = some f)
    (hi : (entityPlaces drawing)[i]? = some (c, part)) (he : d.entities[i]? = some e)
    (hpart : part ≠ .companion) : f ≠ e := by
  obtain ⟨hneeds, v, hv, hvread, hf'⟩ := h.exists_entity hj
  obtain ⟨-, w, hw, hwread, he'⟩ := h.exists_entity hi
  obtain rfl : _ = f := Option.some.inj (hf'.symm.trans hf)
  obtain rfl : _ = e := Option.some.inj (he'.symm.trans he)
  intro heq
  have hobject : c.drawsObject = true := by
    have hkind : (part.of w).kind = .object := by
      rw [← heq]
      rfl
    exact ((Entity.kind_of_eq_object_iff hwread part).1 hkind).resolve_left hpart
  have hreference : w.reference = v.reference := by
    rw [← w.reference_of part, ← heq]
    rfl
  rw [h.drawsObject_eq_false hv hvread hw hwread hreference hneeds] at hobject
  cases hobject

variable (hids : ((drawing.query "object" "UML - Class").map Node.id?).Nodup)

include hids

/-- Of two entities with the same id one is a companion that takes the id of the other one. -/
theorem takesId_of_id_eq {i j : Nat} {b c : Node} {x y : Part} {e f : Entity} (hij : i < j)
    (hi : (entityPlaces drawing)[i]? = some (b, x)) (hj : (entityPlaces drawing)[j]? = some (c, y))
    (he : d.entities[i]? = some e) (hf : d.entities[j]? = some f) (hid : e.id = f.id) :
    x = .companion ∧ y ≠ .companion ∧ b.TakesId c ∨
      x ≠ .companion ∧ y = .companion ∧ c.TakesId b := by
  obtain ⟨hx, ib, hb, heq⟩ := h.id_eq hi he
  obtain ⟨hy, ic, hc, hfeq⟩ := h.id_eq hj hf
  rw [heq, hfeq] at hid
  have hsame : b.id? = c.id? → ¬ (x = .companion ↔ y = .companion) := by
    obtain ⟨hi', hi⟩ := List.getElem?_eq_some_iff.1 hi
    obtain ⟨hj', hj⟩ := List.getElem?_eq_some_iff.1 hj
    have hpair := List.pairwise_iff_getElem.1 (pairwise_entityPlaces hids) i j hi' hj' hij
    rw [hi, hj] at hpair
    exact hpair
  by_cases hxc : x = .companion
  · by_cases hyc : y = .companion
    · rw [hxc, hyc, String.append_left_inj] at hid
      exact absurd (iff_of_true hxc hyc) (hsame (by rw [hb, hc, hid]))
    · subst hxc
      rw [Part.suffix_eq_empty hyc, String.append_empty] at hid
      exact .inl ⟨rfl, hyc, hx, ib, hb, by rw [hc, hid]⟩
  · rw [Part.suffix_eq_empty hxc, String.append_empty] at hid
    by_cases hyc : y = .companion
    · subst hyc
      exact .inr ⟨hxc, rfl, hy, ic, hc, by rw [hb, hid]⟩
    · rw [Part.suffix_eq_empty hyc, String.append_empty] at hid
      exact absurd (iff_of_false hxc hyc) (hsame (by rw [hb, hc, hid]))

omit hids in
theorem id_eq_of_takesId {i j : Nat} {b c : Node} {part : Part} {e f : Entity}
    (htakes : b.TakesId c) (hpart : part ≠ .companion)
    (hj : (entityPlaces drawing)[j]? = some (b, .companion))
    (hi : (entityPlaces drawing)[i]? = some (c, part))
    (hf : d.entities[j]? = some f) (he : d.entities[i]? = some e) : f.id = e.id := by
  obtain ⟨-, id, hb, hc⟩ := htakes
  obtain ⟨-, ib, hb', hf⟩ := h.id_eq hj hf
  obtain ⟨-, ic, hc', he⟩ := h.id_eq hi he
  obtain rfl : id = ib := Option.some.inj (hb.symm.trans hb')
  obtain rfl : _ = ic := Option.some.inj (hc.symm.trans hc')
  rw [hf, he, Part.suffix_eq_empty hpart, String.append_empty]

/-- The entities have ids of their own just when no companion takes the id of a class object. -/
theorem nodup_ids_iff :
    (d.entities.map Entity.id).Nodup ↔
      ∀ b ∈ drawing.query "object" "UML - Class", ∀ c ∈ drawing.query "object" "UML - Class",
        ¬ b.TakesId c := by
  constructor
  · intro hnodup b hb c hc htakes
    obtain ⟨part, hpart, hne⟩ := c.exists_mem_parts
    obtain ⟨i, hi⟩ := exists_entityPlace hb htakes.1
    obtain ⟨j, hj⟩ := exists_entityPlace hc hpart
    obtain ⟨-, v, -, -, hv⟩ := h.exists_entity hi
    obtain ⟨-, w, -, -, hw⟩ := h.exists_entity hj
    have hid := h.id_eq_of_takesId htakes hne hi hj hv hw
    have hpos : i = j := by
      have hlt : i < (d.entities.map Entity.id).length := by
        rw [List.length_map]
        exact (List.getElem?_eq_some_iff.1 hv).1
      rw [← List.getElem?_inj hlt hnodup, List.getElem?_map, List.getElem?_map, hv, hw]
      exact congrArg some hid
    rw [hpos, hj] at hi
    exact hne (congrArg Prod.snd (Option.some.inj hi))
  · intro hfree
    rw [List.nodup_iff_getElem?_ne_getElem?]
    intro i j hij hlt hid
    rw [List.length_map] at hlt
    have he := List.getElem?_eq_getElem (hij.trans hlt)
    have hf := List.getElem?_eq_getElem hlt
    rw [List.getElem?_map, List.getElem?_map, he, hf] at hid
    obtain ⟨b, x, hi⟩ := h.exists_place he
    obtain ⟨c, y, hj⟩ := h.exists_place hf
    have hb := (mem_entityPlaces_iff.1 (List.mem_of_getElem? hi)).1
    have hc := (mem_entityPlaces_iff.1 (List.mem_of_getElem? hj)).1
    rcases h.takesId_of_id_eq hids hij hi hj he hf (Option.some.inj hid) with
      ⟨-, -, htakes⟩ | ⟨-, -, htakes⟩
    · exact hfree b hb c hc htakes
    · exact hfree c hc b hb htakes

/-- A class object is found by its id just when no companion before it takes the id. -/
theorem entity?_eq_some_iff_of_place {i : Nat} {c : Node} {part : Part} {e : Entity}
    (hi : (entityPlaces drawing)[i]? = some (c, part)) (hpart : part ≠ .companion)
    (he : d.entities[i]? = some e) :
    d.entity? e.id = some e ↔
      ∀ j < i, ∀ b, (entityPlaces drawing)[j]? = some (b, .companion) → ¬ b.TakesId c := by
  rw [entity?_eq_some_iff]
  constructor
  · rintro ⟨k, hk, -, hbefore⟩ j hj b hb htakes
    obtain ⟨-, v, -, -, hv⟩ := h.exists_entity hb
    have hkj : k ≤ j := by
      by_contra hlt
      exact hbefore j (Nat.lt_of_not_le hlt) _ hv (h.id_eq_of_takesId htakes hpart hb hi hv he)
    -- What is found in front of the class object is a companion with the same id.
    obtain ⟨c', x, hplace⟩ := h.exists_place hk
    rcases h.takesId_of_id_eq hids (hkj.trans_lt hj) hplace hi hk he rfl with
      ⟨rfl, -, -⟩ | ⟨-, hcompanion, -⟩
    · exact h.ne_companion hplace hk hi he hpart rfl
    · exact hpart hcompanion
  · intro hfree
    refine ⟨i, he, rfl, ?_⟩
    intro j hj f hf hid
    obtain ⟨b, x, hb⟩ := h.exists_place hf
    rcases h.takesId_of_id_eq hids hj hb hi hf he hid with ⟨rfl, -, htakes⟩ | ⟨-, hcompanion, -⟩
    · exact hfree j hj b hb htakes
    · exact hpart hcompanion

end Spells

/-! ### Ids in the model -/

/-- The entities have ids of their own just when no companion takes the id of a class object.  Each
class object stands in the model with a part that is no companion, and its id leads there just when
no companion before that place takes the id. -/
structure KeepsIds (drawing : Node) (d : Model) : Prop where
  nodup_iff : (d.entities.map Entity.id).Nodup ↔
    ∀ b ∈ drawing.query "object" "UML - Class", ∀ c ∈ drawing.query "object" "UML - Class",
      ¬ b.TakesId c
  entity?_iff : ∀ c ∈ drawing.query "object" "UML - Class",
    ∃ (i : Nat) (part : Part) (w : Entity), (entityPlaces drawing)[i]? = some (c, part) ∧
      part ≠ .companion ∧ w.ReadFrom c ∧ c.id? = some w.id ∧ d.entities[i]? = some (part.of w) ∧
      (d.entity? w.id = some (part.of w) ↔
        ∀ j < i, ∀ b, (entityPlaces drawing)[j]? = some (b, .companion) → ¬ b.TakesId c)

/-- Distinct ids of class objects stay distinct but for the companions, whose ids are made from
those of their classes and are not compared with the others. -/
theorem keepsIds_of_entitiesOfDrawing (hd : (entitiesOfDrawing drawing imports).result = .ok d)
    (hids : ((drawing.query "object" "UML - Class").map Node.id?).Nodup) : d.KeepsIds drawing := by
  obtain ⟨es, hes⟩ := exists_spells_of_entitiesOfDrawing hd
  refine ⟨hes.nodup_ids_iff hids, ?_⟩
  intro c hc
  obtain ⟨part, hmem, hpart⟩ := c.exists_mem_parts
  obtain ⟨i, hi⟩ := exists_entityPlace hc hmem
  obtain ⟨-, w, -, hread, he⟩ := hes.exists_entity hi
  have hid : (part.of w).id = w.id := by
    rw [w.id_of part, Part.suffix_eq_empty hpart, String.append_empty]
  have hfound := hes.entity?_eq_some_iff_of_place hids hi hpart he
  rw [hid] at hfound
  exact ⟨i, part, w, hi, hpart, hread, hread.id?_eq, he, hfound⟩

theorem keepsIds_of_counterDrawing :
    ∃ d, (entitiesOfDrawing counterDrawing .empty).result = .ok d ∧
      ((counterDrawing.query "object" "UML - Class").map Node.id?).Nodup ∧
      d.KeepsIds counterDrawing ∧ d.entities.map Entity.id = ["O0", "O0_companion", "O1"] := by
  have hmodel : (entitiesOfDrawing counterDrawing .empty).result.toOption.map
      (fun d => d.entities.map Entity.id) = some ["O0", "O0_companion", "O1"] := by
    decide +kernel
  have hids : ((counterDrawing.query "object" "UML - Class").map Node.id?).Nodup := by
    decide +kernel
  obtain ⟨d, hd, hentities⟩ := exists_eq_ok_of_toOption_map hmodel
  exact ⟨d, hd, hids, keepsIds_of_entitiesOfDrawing hd hids, hentities⟩

/-- A counter that counts itself, in front of a class with the id that its companion gets. -/
def takenIdDrawing : Node :=
  { Node.ofKind "diagram" with
    children := [countedClass "O0" "Counter", classObject "O0_companion" "Registry"] }

/-- The class objects have ids of their own, but two entities share one, and it does not lead to the
registry that is drawn with it. -/
theorem entity?_of_takenIdDrawing :
    ∃ d, (entitiesOfDrawing takenIdDrawing .empty).result = .ok d ∧
      ((takenIdDrawing.query "object" "UML - Class").map Node.id?).Nodup ∧
      (d.entities.map fun e => (e.id, e.name)) =
        [("O0", "Counter"), ("O0_companion", "Counter"), ("O0_companion", "Registry")] ∧
      ¬ (d.entities.map Entity.id).Nodup ∧
      (d.entity? "O0_companion").map Entity.name = some "Counter" := by
  have hmodel : (entitiesOfDrawing takenIdDrawing .empty).result.toOption.map
      (fun d => (d.entities.map fun e => (e.id, e.name),
        (d.entity? "O0_companion").map Entity.name)) =
      some ([("O0", "Counter"), ("O0_companion", "Counter"), ("O0_companion", "Registry")],
        some "Counter") := by
    decide +kernel
  have hids : ((takenIdDrawing.query "object" "UML - Class").map Node.id?).Nodup := by
    decide +kernel
  obtain ⟨d, hd, hfound⟩ := exists_eq_ok_of_toOption_map hmodel
  obtain ⟨hentities, hentity⟩ := Prod.mk.inj hfound
  refine ⟨d, hd, hids, hentities, ?_, hentity⟩
  have hmap : d.entities.map Entity.id = ["O0", "O0_companion", "O0_companion"] := by
    have hfst := congrArg (List.map Prod.fst) hentities
    rw [List.map_map] at hfst
    exact hfst
  rw [hmap]
  decide

end Model

end ClassDiagram
