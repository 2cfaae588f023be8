import ClassDiagram.Proofs.Model.Soundness

/-!
# What the final check reports

The final check lists the faults of a model: those of its entities one after the other, then the
names that packages share, then the packages without entities (`Model.FaultList`).  A shared name is
listed once, in the place of its second bearer (`SharedNames`); the names before a package are
counted on the way, and a name is listed where this count is one.  `Model.check_exact` says that
nothing else is reported, and that a model passes just when it has no fault.
-/

namespace ClassDiagram

open Text

/-! ### Shared names -/

/-- The second bearer of the name stands at the position `k`. -/
structure IsSecond (names : List String) (k : Nat) (name : String) : Prop where
  getElem? : names[k]? = some name
  count_take : (names.take k).count name = 1

/-- `shared` lists the names that stand in `names` more than once, each of them once, in the order
of their second bearers. -/
structure SharedNames (names shared : List String) : Prop where
  nodup : shared.Nodup
  mem_iff : ∀ name, name ∈ shared ↔ 2 ≤ names.count name
  pairwise : shared.Pairwise fun a b =>
    ∀ i j, IsSecond names i a → IsSecond names j b → i < j

section

variable {names shared shared' : List String} {name : String} {j k : Nat}

theorem IsSecond.count_take_succ (h : IsSecond names k name) :
    (names.take (k + 1)).count name = 2 := by
  rw [List.take_add_one, h.getElem?, Option.toList_some, List.count_append, h.count_take,
    List.count_singleton_self]

/-- The second bearer stands among those of which at least two bear the name. -/
theorem IsSecond.lt (h : IsSecond names k name) (hj : 2 ≤ (names.take j).count name) : k < j := by
  by_contra hle
  have hsub := (List.take_sublist_take_left (l := names) (Nat.le_of_not_lt hle)).count_le name
  rw [h.count_take] at hsub
  omega

/-- The second bearer does not stand among those of which at most one bears the name. -/
theorem IsSecond.le (h : IsSecond names k name) (hj : (names.take j).count name ≤ 1) : j ≤ k := by
  by_contra hlt
  have hlt := Nat.succ_le_of_lt (Nat.lt_of_not_le hlt)
  have hsub := (List.take_sublist_take_left (l := names) hlt).count_le name
  rw [h.count_take_succ] at hsub
  omega

theorem exists_isSecond (h : 2 ≤ names.count name) : ∃ k, IsSecond names k name := by
  induction names using List.reverseRecOn with
  | nil => simp at h
  | append_singleton names last ih =>
    by_cases hcount : 2 ≤ names.count name
    · obtain ⟨k, hget, htake⟩ := ih hcount
      have hk : k < names.length := (List.getElem?_eq_some_iff.1 hget).1
      refine ⟨k, ?_, ?_⟩
      · rw [List.getElem?_append_left hk, hget]
      · rw [List.take_append_of_le_length (Nat.le_of_lt hk), htake]
    · -- The last name is the second one.
      rw [List.count_append, List.count_singleton] at h
      split at h
      · next hlast =>
        obtain rfl := beq_iff_eq.1 hlast
        refine ⟨names.length, by simp, ?_⟩
        rw [List.take_left' rfl]
        omega
      · omega

/-- There is only one list of the names that are shared. -/
theorem SharedNames.unique (h : SharedNames names shared) (h' : SharedNames names shared') :
    shared = shared' := by
  have hperm : shared.Perm shared' := by
    rw [List.perm_ext_iff_of_nodup h.nodup h'.nodup]
    intro name
    rw [h.mem_iff, h'.mem_iff]
  refine hperm.eq_of_pairwise ?_ h.pairwise h'.pairwise
  intro a b ha hb hab hba
  obtain ⟨i, hi⟩ := exists_isSecond ((h.mem_iff a).1 ha)
  obtain ⟨j, hj⟩ := exists_isSecond ((h'.mem_iff b).1 hb)
  have hij := hab i j hi hj
  have hji := hba j i hj hi
  omega

end

/-! ### Names that are counted -/

section

variable {before names : List String} {name : String}

theorem mem_repeatedNames_iff : name ∈ repeatedNames before names ↔
    before.count name ≤ 1 ∧ 2 ≤ (before ++ names).count name := by
  induction names generalizing before with
  | nil =>
    simp only [repeatedNames, List.not_mem_nil, List.append_nil, false_iff]
    omega
  | cons first names ih =>
    have hnext := @ih (before ++ [first])
    rw [List.append_assoc, List.singleton_append, List.count_append, List.count_singleton] at hnext
    unfold repeatedNames
    by_cases hname : first = name
    · subst hname
      rw [if_pos (beq_self_eq_true first)] at hnext
      split
      · next hcount =>
        refine iff_of_true List.mem_cons_self ⟨Nat.le_of_eq hcount, ?_⟩
        rw [List.count_append, hcount, List.count_cons_self]
        omega
      · next hcount =>
        rw [hnext, List.count_append, List.count_cons_self]
        omega
    · rw [if_neg (by simpa using hname), Nat.add_zero] at hnext
      split
      · rw [List.mem_cons, hnext, or_iff_right (Ne.symm hname)]
      · exact hnext

theorem nodup_repeatedNames : (repeatedNames before names).Nodup := by
  induction names generalizing before with
  | nil => exact List.nodup_nil
  | cons first names ih =>
    unfold repeatedNames
    split
    · next hcount =>
      -- The next names are looked for behind two bearers of this one.
      refine List.nodup_cons.2 ⟨fun hmem => ?_, ih⟩
      have hle := (mem_repeatedNames_iff.1 hmem).1
      rw [List.count_append, hcount, List.count_singleton_self] at hle
      omega
    · exact ih

theorem pairwise_repeatedNames : (repeatedNames before names).Pairwise fun a b =>
    ∀ i j, IsSecond (before ++ names) i a → IsSecond (before ++ names) j b → i < j := by
  induction names generalizing before with
  | nil => exact List.Pairwise.nil
  | cons first names ih =>
    have hnext := @ih (before ++ [first])
    have hsplit : before ++ [first] ++ names = before ++ first :: names := by simp
    have htake : (before ++ first :: names).take (before ++ [first]).length =
        before ++ [first] := by
      rw [← hsplit, List.take_left' rfl]
    rw [hsplit] at hnext
    unfold repeatedNames
    split
    · next hcount =>
      refine List.pairwise_cons.2 ⟨fun b hb i j hi hj => ?_, hnext⟩
      -- Here the second bearer of this name is reached, but not that of a name listed later.
      have hlt : i < (before ++ [first]).length := hi.lt (by
        rw [htake, List.count_append, hcount, List.count_singleton_self])
      have hle : (before ++ [first]).length ≤ j := hj.le (by
        rw [htake]
        exact (mem_repeatedNames_iff.1 hb).1)
      omega
    · exact hnext

end

theorem sharedNames_iff {names shared : List String} :
    SharedNames names shared ↔ shared = repeatedNames [] names := by
  have hrepeated : SharedNames names (repeatedNames [] names) := by
    refine ⟨nodup_repeatedNames, fun name => ?_, @pairwise_repeatedNames [] names⟩
    rw [mem_repeatedNames_iff]
    simp
  constructor
  · intro h
    exact h.unique hrepeated
  · rintro rfl
    exact hrepeated

/-- A name is listed once, however many packages share it. -/
example : repeatedNames [] ["db", "app", "app", "db", "ui", "app", "db"] = ["app", "db"] := by
  decide

/-! ### Faults -/

/-- A sublist of a list without repetitions is determined by its members. -/
theorem eq_of_sublist_of_mem_iff {α : Type} {l as bs : List α} (hl : l.Nodup) (has : as.Sublist l)
    (hbs : bs.Sublist l) (hmem : ∀ a ∈ l, a ∈ as ↔ a ∈ bs) : as = bs := by
  induction has generalizing bs with
  | slnil => exact (List.sublist_nil.1 hbs).symm
  | @cons as l a has ih =>
    obtain ⟨ha, hl⟩ := List.nodup_cons.1 hl
    cases hbs with
    | cons _ hbs => exact ih hl hbs fun b hb => hmem b (List.mem_cons_of_mem a hb)
    | cons_cons _ hbs =>
      -- The first element is in one of the sublists only.
      have hfirst := (hmem a List.mem_cons_self).2 List.mem_cons_self
      exact absurd (has.subset hfirst) ha
  | @cons_cons as l a has ih =>
    obtain ⟨ha, hl⟩ := List.nodup_cons.1 hl
    cases hbs with
    | cons _ hbs =>
      have hfirst := (hmem a List.mem_cons_self).1 List.mem_cons_self
      exact absurd (hbs.subset hfirst) ha
    | cons_cons _ hbs =>
      refine congrArg (a :: ·) (ih hl hbs fun b hb => ?_)
      have hne : b ≠ a := ne_of_mem_of_not_mem hb ha
      simpa [hne] using hmem b (List.mem_cons_of_mem a hb)

/-- The diagnostic behind its code. -/
def Diagnostic.coded (d : Diagnostic) : String × Diagnostic := (d.code, d)

/-- `ds` lists the faults of the entity with their codes: that its name is blank, which comes first,
and that it is both mutable and immutable. -/
structure Entity.FaultList (e : Entity) (ds : List (String × Diagnostic)) : Prop where
  sublist : ds.Sublist
    [("E0101", .blankName e.id), ("E0102", .conflictingMutability e.reference)]
  blankName_mem_iff : ("E0101", .blankName e.id) ∈ ds ↔ ∀ c ∈ e.name.toList, isSpace c = true
  conflictingMutability_mem_iff : ("E0102", .conflictingMutability e.reference) ∈ ds ↔
    e.isMutable = true ∧ e.isImmutable = true

theorem Entity.FaultList.unique {e : Entity} {ds ds' : List (String × Diagnostic)}
    (h : e.FaultList ds) (h' : e.FaultList ds') : ds = ds' := by
  refine eq_of_sublist_of_mem_iff (by simp) h.sublist h'.sublist fun d hd => ?_
  simp only [List.mem_cons, List.not_mem_nil, or_false] at hd
  rcases hd with rfl | rfl
  · rw [h.blankName_mem_iff, h'.blankName_mem_iff]
  · rw [h.conflictingMutability_mem_iff, h'.conflictingMutability_mem_iff]

theorem Entity.faultList_diagnostics (e : Entity) :
    e.FaultList (e.diagnostics.map Diagnostic.coded) := by
  have hblank : (∀ c ∈ e.name.toList, isSpace c = true) ↔ blank e.name = true := isBlank_iff.symm
  rw [Entity.diagnostics]
  refine ⟨?_, ?_, ?_⟩
  · split_ifs <;> simp [Diagnostic.coded, Diagnostic.code]
  · rw [hblank]
    split_ifs with hname <;> simp [Diagnostic.coded, Diagnostic.code, hname]
  · rw [← Bool.and_eq_true_iff]
    split_ifs with _ hboth hboth <;> simp [Diagnostic.coded, Diagnostic.code, hboth]

theorem Entity.faultList_iff {e : Entity} {ds : List (String × Diagnostic)} :
    e.FaultList ds ↔ ds = e.diagnostics.map Diagnostic.coded := by
  constructor
  · intro h
    exact h.unique e.faultList_diagnostics
  · rintro rfl
    exact e.faultList_diagnostics

namespace Model

variable {m : Model}

/-- `ds` lists the faults of the model with their codes, in this order: the faults of every entity,
the names that several packages share, and the packages that no entity is in. -/
def FaultList (m : Model) (ds : List (String × Diagnostic)) : Prop :=
  ∃ faults shared, ds = faults.flatten ++
      shared.map (fun name => ("E0103", .duplicatePackage name)) ++
      (m.packages.filter fun p => ∀ e ∈ m.entities, e.package ≠ p.name).map
        (fun p => ("E0104", .emptyPackage p.name)) ∧
    List.Forall₂ Entity.FaultList m.entities faults ∧
    SharedNames (m.packages.map Package.name) shared

/-- The model has no faults. -/
structure Faultless (m : Model) : Prop where
  name_not_blank : ∀ e ∈ m.entities, ∃ c ∈ e.name.toList, isSpace c = false
  one_mutability : ∀ e ∈ m.entities, ¬ (e.isMutable = true ∧ e.isImmutable = true)
  name_ne : m.packages.Pairwise fun p q => p.name ≠ q.name
  not_empty : ∀ p ∈ m.packages, ∃ e ∈ m.entities, e.package = p.name

theorem faultList_iff {ds : List (String × Diagnostic)} :
    m.FaultList ds ↔ ds = m.diagnostics.map Diagnostic.coded := by
  have hfaults : ∀ {faults}, List.Forall₂ Entity.FaultList m.entities faults ↔
      faults = m.entities.map fun e => e.diagnostics.map Diagnostic.coded :=
    forall₂_iff_eq_map fun _ _ _ => Entity.faultList_iff
  have hempty : ((m.packages.map Package.name).filter fun name => (m.entitiesIn name).isEmpty) =
      (m.packages.filter fun p => ∀ e ∈ m.entities, e.package ≠ p.name).map Package.name := by
    rw [List.filter_map]
    congr 1
    apply List.filter_congr
    intro p _
    rw [Function.comp_apply, Bool.eq_iff_iff, List.isEmpty_iff, entitiesIn,
      List.filter_eq_nil_iff]
    simp
  simp only [FaultList, hfaults, sharedNames_iff, diagnostics, hempty, List.map_append,
    List.map_flatMap, List.map_map]
  constructor
  · rintro ⟨_, _, rfl, rfl, rfl⟩
    rfl
  · rintro rfl
    exact ⟨_, _, rfl, rfl, rfl⟩

theorem faultless_iff : m.Faultless ↔ m.diagnostics = [] := by
  have hblank : ∀ e : Entity, blank e.name = false ↔ ∃ c ∈ e.name.toList, isSpace c = false := by
    intro e
    rw [blank, isBlank, List.all_eq_false]
    simp
  simp only [diagnostics_eq_nil_iff, Entity.diagnostics_eq_nil_iff, hblank, List.Nodup,
    List.pairwise_map]
  constructor
  · rintro ⟨hname, hmutability, hne, hempty⟩
    exact ⟨fun e he => ⟨hname e he, hmutability e he⟩, hne, hempty⟩
  · rintro ⟨hentity, hne, hempty⟩
    exact ⟨fun e he => (hentity e he).1, fun e he => (hentity e he).2, hne, hempty⟩

/-- What the final check reports are just the faults of the model, in their order, and what passes
it is the model itself, if it has none. -/
theorem check_exact (m : Model) :
    (∀ ds, m.FaultList ds ↔ ds = m.diagnostics.map Diagnostic.coded) ∧
      (∀ n, m.check.result = .ok n ↔ n = m ∧ m.Faultless) ∧
      ∀ e, m.check.result = .error e ↔ e = .invalid m.diagnostics ∧ ¬ m.Faultless := by
  have hcheck : m.check.result = m.validated := by
    rw [check, Traced.result_enter_bind, Traced.result_ofExcept]
  rw [hcheck, faultless_iff]
  refine ⟨fun ds => faultList_iff, fun n => ?_, fun e => ?_⟩
  · rw [validated_eq_ok_iff, eq_comm]
  · rw [validated, ← List.isEmpty_iff]
    split_ifs with hempty <;> simp [hempty, eq_comm]

end Model

end ClassDiagram
