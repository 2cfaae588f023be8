import ClassDiagram.Model.Entity
import ClassDiagram.Model.Imports

/-!
# Class models

A model holds the packages and the entities of a drawing, an index from ids to positions of
entities, and the import table that goes with the drawing.  The index always belongs to the
entities, so that a position found in it is the position of the first entity with that id.
-/

namespace ClassDiagram

/-- A package of a drawing. -/
structure Package where
  /-- The name of the package. -/
  name : String
  /-- Where the package is drawn. -/
  geometry : Rectangle

/-! ### The index -/

/-- An index with the position of an entity added, unless its id is there already. -/
def indexEntity (index : Dictionary Nat) (e : Entity) (position : Nat) : Dictionary Nat :=
  if index.contains e.id then index else index.insert e.id position

/-- The index of entities of which the first stands at `position`, added to an index. -/
def indexFrom (index : Dictionary Nat) (position : Nat) : List Entity → Dictionary Nat
  | [] => index
  | e :: es => indexFrom (indexEntity index e position) (position + 1) es

/-- The position of the first entity of each id. -/
def indexOf (entities : List Entity) : Dictionary Nat :=
  indexFrom Dictionary.empty 0 entities

theorem find?_indexEntity (index : Dictionary Nat) (e : Entity) (position : Nat) (id : String) :
    (indexEntity index e position).find? id =
      (index.find? id).or (if e.id = id then some position else none) := by
  unfold indexEntity
  split
  · next h =>
    by_cases hid : e.id = id
    · subst hid
      obtain ⟨i, hi⟩ := Option.isSome_iff_exists.1 h
      simp [hi]
    · simp [hid]
  · next h =>
    rw [Dictionary.find?_insert]
    by_cases hid : e.id = id
    · subst hid
      have hn : index.find? e.id = none := by simpa [Dictionary.contains] using h
      simp [hn]
    · simp [hid, Ne.symm hid]

theorem find?_indexFrom (index : Dictionary Nat) (position : Nat) (es : List Entity)
    (id : String) :
    (indexFrom index position es).find? id =
      (index.find? id).or ((es.findIdx? fun e => e.id = id).map fun i => position + i) := by
  induction es generalizing index position with
  | nil => simp [indexFrom]
  | cons e es ih =>
    rw [indexFrom, ih, find?_indexEntity, List.findIdx?_cons]
    by_cases hid : e.id = id
    · cases index.find? id <;> simp [hid]
    · cases hf : es.findIdx? fun e => decide (e.id = id) with
      | none => simp [hid]
      | some i =>
        have : position + 1 + i = position + (i + 1) := by omega
        simp [hid, this]

/-- The index finds the first entity of an id. -/
theorem find?_indexOf (es : List Entity) (id : String) :
    (indexOf es).find? id = es.findIdx? fun e => e.id = id := by
  rw [indexOf, find?_indexFrom]
  simp

/-! ### Models -/

/-- The packages and the entities of a drawing. -/
structure Model where
  /-- The packages, large ones before small ones. -/
  packages : List Package
  /-- The entities, each companion after its class. -/
  entities : List Entity
  /-- The import table. -/
  imports : ImportTable
  /-- The positions of the entities by id. -/
  index : Dictionary Nat := indexOf entities
  /-- The index belongs to the entities. -/
  index_eq : index = indexOf entities := by rfl

namespace Model

/-- The model without packages and entities. -/
def empty : Model where
  packages := []
  entities := []
  imports := Dictionary.empty

instance : Inhabited Model := ⟨empty⟩

/-- The model of the given parts. -/
def ofParts (packages : List Package) (entities : List Entity) (imports : ImportTable) : Model where
  packages := packages
  entities := entities
  imports := imports

/-- The model with other packages. -/
def withPackages (m : Model) (packages : List Package) : Model :=
  { m with packages := packages }

/-- The model with other entities. -/
def withEntities (m : Model) (entities : List Entity) : Model :=
  ofParts m.packages entities m.imports

/-- The model with another import table. -/
def withImports (m : Model) (imports : ImportTable) : Model :=
  { m with imports := imports }

/-- The model with `f` applied to every entity. -/
def mapEntities (m : Model) (f : Entity → Entity) : Model :=
  m.withEntities (m.entities.map f)

/-- A model is determined by its packages, its entities and its import table. -/
theorem ext_parts {m n : Model} (hp : m.packages = n.packages) (he : m.entities = n.entities)
    (hi : m.imports = n.imports) : m = n := by
  obtain ⟨mp, me, mi, mx, hm⟩ := m
  obtain ⟨np, ne, ni, nx, hn⟩ := n
  dsimp only at hp he hi
  subst hp he hi hm hn
  rfl

/-! ### Finding entities -/

/-- The position of the first entity with an id. -/
def position? (m : Model) (id : String) : Option Nat :=
  m.index.find? id

/-- The first entity with an id. -/
def entity? (m : Model) (id : String) : Option Entity :=
  (m.position? id).bind fun i => m.entities[i]?

/-- Some entity has the id. -/
def containsEntity (m : Model) (id : String) : Bool :=
  m.index.contains id

/-- The first package of a name. -/
def package? (m : Model) (name : String) : Option Package :=
  m.packages.find? fun p => p.name = name

/-- The entities of a package. -/
def entitiesIn (m : Model) (package : String) : List Entity :=
  m.entities.filter fun e => e.package = package

/-- The entities with a reference, in order. -/
def referredTo (m : Model) (r : EntityRef) : List Entity :=
  m.entities.filter fun e => e.reference = r

/-- A position found by id is that of the first entity with the id. -/
theorem position?_eq (m : Model) (id : String) :
    m.position? id = m.entities.findIdx? fun e => e.id = id := by
  rw [position?, m.index_eq, find?_indexOf]

end Model

end ClassDiagram
