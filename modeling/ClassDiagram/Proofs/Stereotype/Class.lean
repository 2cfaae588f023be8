import ClassDiagram.Proofs.Outcome.Except
import ClassDiagram.Stereotype.Class

/-!
# Reading the stereotypes of a class

The stereotypes of a class are read one after the other, and the reading stops at the second one
that names a kind.  What comes of it is told by the stereotypes alone: two that name kinds are an
error, and otherwise all of them have been added (`addTokens_eq`).  So `ReadsAs` can say what a
class with given stereotypes comes to without saying how they are read (`readsAs_iff`), and their
order decides only which ones an error names and how the ones without a meaning are listed
(`read_exact`).
-/

namespace ClassDiagram

/-! ### Words -/

/-- The words that mean something on a class. -/
def classWords : List String :=
  ["interface", "trait", "enum", "enumeration", "singleton", "object", "mutable", "immutable"]

/-- The words that name a kind of entity, each with its kind. -/
def kindWords : List (String × EntityKind) :=
  [("interface", .trait), ("trait", .trait), ("enum", .enumeration),
    ("enumeration", .enumeration), ("singleton", .object), ("object", .object)]

theorem EntityKind.ofStereotype?_eq_some_iff {token : String} {kind : EntityKind} :
    ofStereotype? token = some kind ↔ (token, kind) ∈ kindWords := by
  constructor
  · intro h
    unfold ofStereotype? at h
    split_ifs at h with htrait henum hobject
    · obtain rfl := Option.some.inj h
      rcases htrait with rfl | rfl <;> decide
    · obtain rfl := Option.some.inj h
      rcases henum with rfl | rfl <;> decide
    · obtain rfl := Option.some.inj h
      rcases hobject with rfl | rfl <;> decide
  · have hwords : ∀ word ∈ kindWords, ofStereotype? word.1 = some word.2 := by decide
    exact hwords (token, kind)

theorem EntityKind.ofStereotype?_eq_none_iff {token : String} :
    ofStereotype? token = none ↔ token ∉ kindWords.map Prod.fst := by
  rw [Option.eq_none_iff_forall_ne_some]
  simp only [ne_eq, ofStereotype?_eq_some_iff, List.mem_map, Prod.exists, exists_and_right,
    exists_eq_right, not_exists]

namespace Stereotype

/-- The stereotypes that name a kind, in order. -/
def kindTokens (tokens : List String) : List String :=
  tokens.filter (· ∈ kindWords.map Prod.fst)

theorem mem_kindTokens_iff {token : String} {tokens : List String} :
    token ∈ kindTokens tokens ↔
      token ∈ tokens ∧ ∃ kind, EntityKind.ofStereotype? token = some kind := by
  simp [kindTokens, EntityKind.ofStereotype?_eq_some_iff]

theorem kindTokens_cons_of_some {token : String} {tokens : List String} {kind : EntityKind}
    (h : EntityKind.ofStereotype? token = some kind) :
    kindTokens (token :: tokens) = token :: kindTokens tokens := by
  have hmem : token ∈ kindWords.map Prod.fst :=
    List.mem_map_of_mem (EntityKind.ofStereotype?_eq_some_iff.1 h)
  exact List.filter_cons_of_pos (decide_eq_true hmem)

theorem kindTokens_cons_of_none {token : String} {tokens : List String}
    (h : EntityKind.ofStereotype? token = none) :
    kindTokens (token :: tokens) = kindTokens tokens :=
  List.filter_cons_of_neg (by simpa using EntityKind.ofStereotype?_eq_none_iff.1 h)

theorem mem_classWords_iff {token : String} :
    token ∈ classWords ↔
      token ∈ kindWords.map Prod.fst ∨ token = "mutable" ∨ token = "immutable" := by
  simp [classWords, kindWords, or_assoc]

namespace ClassStereotypes

/-! ### All stereotypes added -/

/-- What is said when all of the stereotypes have been added: the last one that names a kind names
the kind of the entity. -/
def withTokens (s : ClassStereotypes) (tokens : List String) : ClassStereotypes where
  kind := ((kindTokens tokens).filterMap EntityKind.ofStereotype?).getLast?.getD s.kind
  isMutable := s.isMutable || decide ("mutable" ∈ tokens)
  isImmutable := s.isImmutable || decide ("immutable" ∈ tokens)
  unknown := s.unknown ++ tokens.filter (· ∉ classWords)

theorem withTokens_nil (s : ClassStereotypes) : s.withTokens [] = s := by
  simp [withTokens, kindTokens]

theorem withTokens_cons_of_some {s : ClassStereotypes} {token : String} {tokens : List String}
    {kind : EntityKind} (h : EntityKind.ofStereotype? token = some kind) :
    s.withTokens (token :: tokens) = withTokens { s with kind := kind } tokens := by
  have hmem : token ∈ kindWords.map Prod.fst :=
    List.mem_map_of_mem (EntityKind.ofStereotype?_eq_some_iff.1 h)
  have hmutable : "mutable" ≠ token := by
    rintro rfl
    exact absurd hmem (by decide)
  have himmutable : "immutable" ≠ token := by
    rintro rfl
    exact absurd hmem (by decide)
  have hclass : token ∈ classWords := mem_classWords_iff.2 (.inl hmem)
  simp [withTokens, kindTokens_cons_of_some h, List.filterMap_cons_some h, List.getLast?_cons,
    hmutable, himmutable, hclass]

theorem withTokens_cons_of_none {s : ClassStereotypes} {token : String} {tokens : List String}
    (h : EntityKind.ofStereotype? token = none) :
    s.withTokens (token :: tokens) = (s.addFlag token).withTokens tokens := by
  have hkinds := EntityKind.ofStereotype?_eq_none_iff.1 h
  unfold addFlag
  split_ifs with hmutable himmutable
  · subst hmutable
    simp [withTokens, kindTokens_cons_of_none h, mem_classWords_iff]
  · subst himmutable
    simp [withTokens, kindTokens_cons_of_none h, mem_classWords_iff]
  · have hclass : token ∉ classWords := by
      rw [mem_classWords_iff]
      tauto
    simp [withTokens, kindTokens_cons_of_none h, hclass, Ne.symm hmutable, Ne.symm himmutable]

/-- Whatever has been read before, a second stereotype that names a kind is an error, and otherwise
all of them are added. -/
theorem addTokens_eq (entity : String) (s : ClassStereotypes) (first : Option String)
    (tokens : List String) :
    addTokens entity s first tokens =
      match first.toList ++ kindTokens tokens with
      | a :: b :: _ => .error (.conflictingKinds entity a b)
      | _ => .ok (s.withTokens tokens) := by
  induction tokens generalizing s first with
  | nil =>
    rw [addTokens, withTokens_nil]
    cases first <;> rfl
  | cons token tokens ih =>
    unfold addTokens
    cases hkind : EntityKind.ofStereotype? token with
    | some kind =>
      rw [kindTokens_cons_of_some hkind]
      cases first with
      | some first => rfl
      | none =>
        rw [withTokens_cons_of_some hkind]
        exact ih _ _
    | none =>
      rw [kindTokens_cons_of_none hkind, withTokens_cons_of_none hkind]
      exact ih _ _

/-! ### What the stereotypes say -/

/-- What a class is whose stereotypes name one kind at most. -/
structure SaidBy (s : ClassStereotypes) (tokens : List String) : Prop where
  kind : kindTokens tokens = [] ∧ s.kind = .cls ∨
    ∃ token, kindTokens tokens = [token] ∧ (token, s.kind) ∈ kindWords
  isMutable_iff : s.isMutable = true ↔ "mutable" ∈ tokens
  isImmutable_iff : s.isImmutable = true ↔ "immutable" ∈ tokens
  unknown_eq : s.unknown = tokens.filter (· ∉ classWords)

/-- What comes of reading these stereotypes for the entity. -/
inductive ReadsAs (entity : String) (tokens : List String) :
    Except ModelError ClassStereotypes → Prop
  | conflictingKinds {first second : String} {rest : List String}
      (hkinds : kindTokens tokens = first :: second :: rest) :
      ReadsAs entity tokens (.error (.conflictingKinds entity first second))
  | conflictingMutability (hkinds : (kindTokens tokens).length ≤ 1)
      (hboth : "mutable" ∈ tokens ∧ "immutable" ∈ tokens) :
      ReadsAs entity tokens (.error (.conflictingMutability entity))
  | ok {s : ClassStereotypes} (hsaid : s.SaidBy tokens)
      (hboth : ¬ ("mutable" ∈ tokens ∧ "immutable" ∈ tokens)) :
      ReadsAs entity tokens (.ok s)

variable {entity : String} {tokens tokens' : List String} {s s' : ClassStereotypes}

theorem saidBy_withTokens (h : (kindTokens tokens).length ≤ 1) :
    (initial.withTokens tokens).SaidBy tokens where
  kind := by
    cases hkinds : kindTokens tokens with
    | nil => exact .inl ⟨rfl, by simp [withTokens, hkinds, initial]⟩
    | cons token rest =>
      obtain rfl : rest = [] := by simpa [hkinds] using h
      have htoken : token ∈ kindTokens tokens := hkinds ▸ List.mem_singleton_self token
      have hword : token ∈ kindWords.map Prod.fst := by
        simpa using (List.mem_filter.1 htoken).2
      obtain ⟨⟨_, kind⟩, hmem, rfl⟩ := List.mem_map.1 hword
      refine .inr ⟨_, rfl, ?_⟩
      have hkind := EntityKind.ofStereotype?_eq_some_iff.2 hmem
      simpa [withTokens, hkinds, List.filterMap_cons_some hkind] using hmem
  isMutable_iff := by simp [withTokens, initial]
  isImmutable_iff := by simp [withTokens, initial]
  unknown_eq := by simp [withTokens, initial]

theorem SaidBy.length_le (h : s.SaidBy tokens) : (kindTokens tokens).length ≤ 1 := by
  rcases h.kind with ⟨hkinds, -⟩ | ⟨token, hkinds, -⟩ <;> simp [hkinds]

theorem SaidBy.kind_eq (h : s.SaidBy tokens) (h' : s'.SaidBy tokens')
    (hperm : (kindTokens tokens).Perm (kindTokens tokens')) : s.kind = s'.kind := by
  rcases h.kind with ⟨hkinds, hkind⟩ | ⟨token, hkinds, hkind⟩
  · rcases h'.kind with ⟨-, hkind'⟩ | ⟨token', hkinds', -⟩
    · rw [hkind, hkind']
    · simp [hkinds, hkinds'] at hperm
  · rcases h'.kind with ⟨hkinds', -⟩ | ⟨token', hkinds', hkind'⟩
    · simp [hkinds, hkinds'] at hperm
    · obtain rfl : token = token' := by simpa [hkinds, hkinds'] using hperm
      -- A word names one kind only.
      rw [← EntityKind.ofStereotype?_eq_some_iff] at hkind hkind'
      exact Option.some.inj (hkind.symm.trans hkind')

theorem SaidBy.unique (h : s.SaidBy tokens) (h' : s'.SaidBy tokens) : s = s' := by
  have hmutable : s.isMutable = s'.isMutable :=
    Bool.eq_iff_iff.2 (h.isMutable_iff.trans h'.isMutable_iff.symm)
  have himmutable : s.isImmutable = s'.isImmutable :=
    Bool.eq_iff_iff.2 (h.isImmutable_iff.trans h'.isImmutable_iff.symm)
  have hunknown : s.unknown = s'.unknown := h.unknown_eq.trans h'.unknown_eq.symm
  have hkind : s.kind = s'.kind := h.kind_eq h' (List.Perm.refl _)
  cases s
  cases s'
  simp_all

/-- Stereotypes call for one outcome only. -/
theorem ReadsAs.unique {r r' : Except ModelError ClassStereotypes}
    (h : ReadsAs entity tokens r) (h' : ReadsAs entity tokens r') : r = r' := by
  cases h with
  | conflictingKinds hkinds =>
    cases h' with
    | conflictingKinds hkinds' =>
      rw [hkinds] at hkinds'
      cases hkinds'
      rfl
    | conflictingMutability hle => simp [hkinds] at hle
    | ok hsaid => simpa [hkinds] using hsaid.length_le
  | conflictingMutability hle hboth =>
    cases h' with
    | conflictingKinds hkinds => simp [hkinds] at hle
    | conflictingMutability => rfl
    | ok _ hnot => exact absurd hboth hnot
  | ok hsaid hnot =>
    cases h' with
    | conflictingKinds hkinds => simpa [hkinds] using hsaid.length_le
    | conflictingMutability _ hboth => exact absurd hboth hnot
    | ok hsaid' => rw [hsaid.unique hsaid']

/-- Reading a text comes to what its stereotypes call for. -/
theorem readsAs_read (entity text : String) :
    ReadsAs entity (splitTokens text) (read entity text) := by
  rw [read, addTokens_eq, Option.toList_none, List.nil_append]
  generalize splitTokens text = tokens
  split
  · next first second rest hkinds => exact .conflictingKinds hkinds
  · next hkinds =>
    have hle : (kindTokens tokens).length ≤ 1 := by
      match h : kindTokens tokens with
      | [] => simp
      | [_] => simp
      | first :: second :: rest => exact (hkinds first second rest h).elim
    have hsaid := saidBy_withTokens hle
    have hboth : ((initial.withTokens tokens).isMutable = true ∧
        (initial.withTokens tokens).isImmutable = true) ↔
        "mutable" ∈ tokens ∧ "immutable" ∈ tokens :=
      and_congr hsaid.isMutable_iff hsaid.isImmutable_iff
    dsimp only [bind, Except.bind]
    split
    · next h => exact .conflictingMutability hle (hboth.1 h)
    · next h => exact .ok hsaid (mt hboth.2 h)

/-- `ReadsAs` says what comes of reading a list of stereotypes. -/
theorem readsAs_iff {text : String} {r : Except ModelError ClassStereotypes} :
    read entity text = r ↔ ReadsAs entity (splitTokens text) r := by
  constructor
  · rintro rfl
    exact readsAs_read entity text
  · intro h
    exact (readsAs_read entity text).unique h

/-- What holds of the stereotypes of a class that have been read. -/
theorem saidBy_of_read {text : String} (h : read entity text = .ok s) :
    s.SaidBy (splitTokens text) ∧ ¬ (s.isMutable = true ∧ s.isImmutable = true) := by
  cases readsAs_iff.1 h with
  | ok hsaid hboth => exact ⟨hsaid, by rwa [hsaid.isMutable_iff, hsaid.isImmutable_iff]⟩

/-! ### The order of the stereotypes -/

/-- Both readings fail for the same reason, or they differ at most in the order in which the
stereotypes without a meaning are listed. -/
inductive Alike (entity : String) :
    Except ModelError ClassStereotypes → Except ModelError ClassStereotypes → Prop
  | conflictingKinds (first second first' second' : String) :
      Alike entity (.error (.conflictingKinds entity first second))
        (.error (.conflictingKinds entity first' second'))
  | conflictingMutability : Alike entity (.error (.conflictingMutability entity))
      (.error (.conflictingMutability entity))
  | ok {s s' : ClassStereotypes} (hkind : s.kind = s'.kind) (hmutable : s.isMutable = s'.isMutable)
      (himmutable : s.isImmutable = s'.isImmutable) (hunknown : s.unknown.Perm s'.unknown) :
      Alike entity (.ok s) (.ok s')

theorem SaidBy.alike (h : s.SaidBy tokens) (h' : s'.SaidBy tokens') (hperm : tokens.Perm tokens') :
    Alike entity (.ok s) (.ok s') := by
  refine .ok (h.kind_eq h' (hperm.filter _)) ?_ ?_ ?_
  · rw [Bool.eq_iff_iff, h.isMutable_iff, h'.isMutable_iff, hperm.mem_iff]
  · rw [Bool.eq_iff_iff, h.isImmutable_iff, h'.isImmutable_iff, hperm.mem_iff]
  · rw [h.unknown_eq, h'.unknown_eq]
    exact hperm.filter _

theorem ReadsAs.alike {r r' : Except ModelError ClassStereotypes} (h : ReadsAs entity tokens r)
    (h' : ReadsAs entity tokens' r') (hperm : tokens.Perm tokens') : Alike entity r r' := by
  have hlength : (kindTokens tokens).length = (kindTokens tokens').length :=
    (hperm.filter _).length_eq
  have hboth : ("mutable" ∈ tokens ∧ "immutable" ∈ tokens) ↔
      ("mutable" ∈ tokens' ∧ "immutable" ∈ tokens') :=
    and_congr hperm.mem_iff hperm.mem_iff
  cases h with
  | conflictingKinds hkinds =>
    rw [hkinds, List.length_cons, List.length_cons] at hlength
    cases h' with
    | conflictingKinds => exact .conflictingKinds _ _ _ _
    | conflictingMutability hle => omega
    | ok hsaid =>
      have hle := hsaid.length_le
      omega
  | conflictingMutability hle hmut =>
    cases h' with
    | conflictingKinds hkinds =>
      rw [hkinds, List.length_cons, List.length_cons] at hlength
      omega
    | conflictingMutability => exact .conflictingMutability
    | ok _ hnot => exact absurd (hboth.1 hmut) hnot
  | ok hsaid hnot =>
    cases h' with
    | conflictingKinds hkinds =>
      have hle := hsaid.length_le
      rw [hkinds, List.length_cons, List.length_cons] at hlength
      omega
    | conflictingMutability _ hmut => exact absurd (hboth.2 hmut) hnot
    | ok hsaid' => exact hsaid.alike hsaid' hperm

/-- Reading the stereotypes of a class fails when two of them name kinds, and reports the first
two; else it fails when both mutabilities are among them; else it gives the kind that one of them
names, the mutabilities that are among them, and all others in their order.  Stereotypes in another
order are read alike. -/
theorem read_exact (entity text : String) :
    (∀ r, read entity text = r ↔ ReadsAs entity (splitTokens text) r) ∧
      ∀ text', (splitTokens text).Perm (splitTokens text') →
        Alike entity (read entity text) (read entity text') := by
  refine ⟨fun r => readsAs_iff, fun text' hperm => ?_⟩
  exact (readsAs_read entity text).alike (readsAs_read entity text') hperm

theorem alike_of_shuffledStereotypes :
    (splitTokens "entity; <<trait>>, immutable, table;, entity").Perm
        (splitTokens "table, entity, immutable, «entity», trait") ∧
      Alike "Order" (read "Order" "entity; <<trait>>, immutable, table;, entity")
        (read "Order" "table, entity, immutable, «entity», trait") := by
  have hperm : (splitTokens "entity; <<trait>>, immutable, table;, entity").Perm
      (splitTokens "table, entity, immutable, «entity», trait") := by decide +kernel
  exact ⟨hperm, (read_exact "Order" _).2 _ hperm⟩

end ClassStereotypes

end Stereotype

end ClassDiagram
