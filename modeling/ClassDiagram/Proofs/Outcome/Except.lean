import Mathlib.Data.List.Forall2

/-!
# Results that are values

A step made of two succeeds just when both do, the second one on the value of the first
(`bind_eq_ok_iff`).  A list of steps succeeds just when every step does, and its values are theirs,
in order (`mapM_eq_ok_iff`).  An error of several steps is the error of one of them
(`bind_eq_error_iff`, `exists_of_mapM_eq_error`).
-/

namespace ClassDiagram

variable {ε ε' α β : Type}

theorem bind_eq_ok_iff {x : Except ε α} {f : α → Except ε β} {b : β} :
    x >>= f = .ok b ↔ ∃ a, x = .ok a ∧ f a = .ok b := by
  cases x with
  | error e => simp [bind, Except.bind]
  | ok a => simp [bind, Except.bind]

theorem bind_eq_error_iff {x : Except ε α} {f : α → Except ε β} {e : ε} :
    x >>= f = .error e ↔ x = .error e ∨ ∃ a, x = .ok a ∧ f a = .error e := by
  cases x with
  | error e' => simp [bind, Except.bind]
  | ok a => simp [bind, Except.bind]

theorem map_eq_ok_iff {x : Except ε α} {f : α → β} {b : β} :
    x.map f = .ok b ↔ ∃ a, x = .ok a ∧ f a = b := by
  cases x with
  | error e => simp [Except.map]
  | ok a => simp [Except.map]

theorem mapError_eq_ok_iff {x : Except ε α} {f : ε → ε'} {a : α} :
    x.mapError f = .ok a ↔ x = .ok a := by
  cases x with
  | error e => simp [Except.mapError]
  | ok a => simp [Except.mapError]

theorem mapError_eq_error_iff {x : Except ε α} {f : ε → ε'} (hf : Function.Injective f) {e : ε} :
    x.mapError f = .error (f e) ↔ x = .error e := by
  cases x with
  | error e' => simp [Except.mapError, hf.eq_iff]
  | ok a => simp [Except.mapError]

/-- A step succeeds if something can be read off its value. -/
theorem exists_eq_ok_of_toOption_map {x : Except ε α} {f : α → β} {b : β}
    (h : x.toOption.map f = some b) : ∃ a, x = .ok a ∧ f a = b := by
  cases x with
  | error e => cases h
  | ok a => exact ⟨a, rfl, Option.some.inj h⟩

/-! ### Lists related element by element -/

section Forall₂

variable {R : α → β → Prop} {as : List α} {bs : List β}

theorem forall₂_congr_of_mem {S : α → β → Prop} (h : ∀ a ∈ as, ∀ b, R a b ↔ S a b) :
    List.Forall₂ R as bs ↔ List.Forall₂ S as bs := by
  rw [List.forall₂_iff_zip, List.forall₂_iff_zip]
  refine and_congr_right fun _ => forall₂_congr fun a b => forall_congr' fun hab => ?_
  exact h a (List.of_mem_zip hab).1 b

/-- Lists related by a function are a list and its image. -/
theorem forall₂_iff_eq_map {f : α → β} (h : ∀ a ∈ as, ∀ b, R a b ↔ b = f a) :
    List.Forall₂ R as bs ↔ bs = as.map f := by
  rw [forall₂_congr_of_mem h, ← List.forall₂_eq_eq_eq, List.forall₂_map_right_iff]
  exact ⟨List.Forall₂.flip, List.Forall₂.flip⟩

theorem exists_getElem?_of_forall₂ (h : List.Forall₂ R as bs) {i : Nat} {a : α}
    (ha : as[i]? = some a) : ∃ b, bs[i]? = some b ∧ R a b := by
  induction h generalizing i with
  | nil => simp at ha
  | @cons a' b' as bs hab _ ih =>
    cases i with
    | zero =>
      obtain rfl : a' = a := by simpa using ha
      exact ⟨b', rfl, hab⟩
    | succ i => exact ih ha

theorem exists_of_forall₂_right (h : List.Forall₂ R as bs) {b : β} (hb : b ∈ bs) :
    ∃ a ∈ as, R a b := by
  induction h with
  | nil => simp at hb
  | @cons a b' as bs hab _ ih =>
    rcases List.mem_cons.1 hb with rfl | hb
    · exact ⟨a, List.mem_cons_self, hab⟩
    · obtain ⟨a', ha', h⟩ := ih hb
      exact ⟨a', List.mem_cons_of_mem _ ha', h⟩

/-- What partners have in common, some element of the first list has just when some element of the
second one has it. -/
theorem exists_mem_iff_of_forall₂ {p : α → Prop} {q : β → Prop} (h : List.Forall₂ R as bs)
    (hpq : ∀ a b, R a b → (p a ↔ q b)) : (∃ a ∈ as, p a) ↔ ∃ b ∈ bs, q b := by
  induction h with
  | nil => simp
  | cons hab _ ih => rw [List.exists_mem_cons_iff, List.exists_mem_cons_iff, ih, hpq _ _ hab]

/-- An element in the first list has its partner at the same place in the second one. -/
theorem exists_eq_append_of_forall₂ {before after : List α} {a : α}
    (h : List.Forall₂ R (before ++ a :: after) bs) :
    ∃ before' b after', bs = before' ++ b :: after' ∧ List.Forall₂ R before before' ∧ R a b ∧
      List.Forall₂ R after after' := by
  induction before generalizing bs with
  | nil =>
    obtain ⟨b, bs, hab, hbs, rfl⟩ := List.forall₂_cons_left_iff.1 h
    exact ⟨[], b, bs, rfl, .nil, hab, hbs⟩
  | cons x before ih =>
    obtain ⟨y, bs, hxy, hbs, rfl⟩ := List.forall₂_cons_left_iff.1 h
    obtain ⟨before', b, after', rfl, hbefore, hab, hafter⟩ := ih hbs
    exact ⟨y :: before', b, after', rfl, .cons hxy hbefore, hab, hafter⟩

/-- Elements of the second list are dropped just where their partners are, and changed where they
are kept. -/
theorem forall₂_filter_filterMap {γ : Type} {S : α → γ → Prop} {p : α → Bool} {f : β → Option γ}
    (h : List.Forall₂ R as bs)
    (hR : ∀ a b, R a b → if p a then ∃ c, f b = some c ∧ S a c else f b = none) :
    List.Forall₂ S (as.filter p) (bs.filterMap f) := by
  induction h with
  | nil => exact .nil
  | @cons a b as bs hab _ ih =>
    have hkept := hR a b hab
    by_cases ha : p a = true
    · rw [if_pos ha] at hkept
      obtain ⟨c, hc, hac⟩ := hkept
      rw [List.filter_cons_of_pos ha, List.filterMap_cons_some hc]
      exact .cons hac ih
    · rw [if_neg ha] at hkept
      rw [List.filter_cons_of_neg ha, List.filterMap_cons_none hkept]
      exact ih

theorem exists_getElem?_of_map_eq {f : α → β} (h : as.map f = bs) {i : Nat} {b : β}
    (hb : bs[i]? = some b) : ∃ a, as[i]? = some a ∧ f a = b := by
  rw [← h, List.getElem?_map] at hb
  exact Option.map_eq_some_iff.1 hb

theorem map_eq_of_forall₂ {γ : Type} {f : α → γ} {g : β → γ} (h : List.Forall₂ R as bs)
    (hfg : ∀ a b, R a b → f a = g b) : as.map f = bs.map g := by
  induction h with
  | nil => rfl
  | cons hab _ ih => rw [List.map_cons, List.map_cons, hfg _ _ hab, ih]

/-- A list of partners is the only one if no element has two of them. -/
theorem forall₂_iff_eq {cs : List β} (hR : Relator.RightUnique R) (h : List.Forall₂ R as bs) :
    List.Forall₂ R as cs ↔ cs = bs := by
  constructor
  · intro h'
    exact hR.forall₂ h' h
  · rintro rfl
    exact h

/-- Partners for all elements of a list make up a list. -/
theorem exists_forall₂_iff : (∃ bs, List.Forall₂ R as bs) ↔ ∀ a ∈ as, ∃ b, R a b := by
  induction as with
  | nil => simp
  | cons a as ih =>
    rw [List.forall_mem_cons, ← ih]
    constructor
    · rintro ⟨_, h⟩
      obtain ⟨b, bs, hab, hbs, rfl⟩ := List.forall₂_cons_left_iff.1 h
      exact ⟨⟨b, hab⟩, bs, hbs⟩
    · rintro ⟨⟨b, hab⟩, bs, hbs⟩
      exact ⟨b :: bs, .cons hab hbs⟩

/-- What any two partners have in common with any two others, two places of the first list have
just when the same places of the second one have it. -/
theorem pairwise_iff_of_forall₂ {S : α → α → Prop} {T : β → β → Prop} (h : List.Forall₂ R as bs)
    (hST : ∀ a b a' b', R a b → R a' b' → (S a a' ↔ T b b')) : as.Pairwise S ↔ bs.Pairwise T := by
  induction h with
  | nil => simp
  | @cons a b as bs hab hbs ih =>
    have hhead : (∀ a' ∈ as, S a a') ↔ ∀ b' ∈ bs, T b b' := by
      have hnone := exists_mem_iff_of_forall₂ hbs fun a' b' hab' =>
        not_congr (hST a b a' b' hab hab')
      simpa using not_congr hnone
    rw [List.pairwise_cons, List.pairwise_cons, ih, hhead]

end Forall₂

/-! ### Two results -/

/-- Both steps fail, or both have the same value. -/
def SameValue (x y : Except ε α) : Prop :=
  (∃ e e', x = .error e ∧ y = .error e') ∨ ∃ a, x = .ok a ∧ y = .ok a

theorem sameValue_of_iff {x y : Except ε α} (h : ∀ a, x = .ok a ↔ y = .ok a) : SameValue x y := by
  cases x with
  | ok a => exact .inr ⟨a, rfl, (h a).1 rfl⟩
  | error e =>
    cases y with
    | ok a => exact absurd ((h a).2 rfl) (by simp)
    | error e' => exact .inl ⟨e, e', rfl, rfl⟩

/-! ### Lists of steps -/

theorem mapM_eq_ok_iff {f : α → Except ε β} {l : List α} {bs : List β} :
    l.mapM f = .ok bs ↔ List.Forall₂ (fun a b => f a = .ok b) l bs := by
  induction l generalizing bs with
  | nil =>
    rw [List.mapM_nil, List.forall₂_nil_left_iff]
    constructor
    · intro h
      cases h
      rfl
    · rintro rfl
      rfl
  | cons a l ih =>
    rw [List.mapM_cons, bind_eq_ok_iff, List.forall₂_cons_left_iff]
    constructor
    · rintro ⟨b, hb, h⟩
      obtain ⟨bs', hbs, hpure⟩ := bind_eq_ok_iff.1 h
      cases hpure
      exact ⟨b, bs', hb, ih.1 hbs, rfl⟩
    · rintro ⟨b, bs', hb, hbs, rfl⟩
      exact ⟨b, hb, bind_eq_ok_iff.2 ⟨bs', ih.2 hbs, rfl⟩⟩

/-- The error of a list of steps is the error of one of them. -/
theorem exists_of_mapM_eq_error {f : α → Except ε β} {l : List α} {e : ε}
    (h : l.mapM f = .error e) : ∃ a ∈ l, f a = .error e := by
  induction l with
  | nil => cases h
  | cons a l ih =>
    rw [List.mapM_cons, bind_eq_error_iff] at h
    rcases h with ha | ⟨b, -, h⟩
    · exact ⟨a, List.mem_cons_self, ha⟩
    · rcases bind_eq_error_iff.1 h with hl | ⟨bs, -, hpure⟩
      · obtain ⟨a', ha', he⟩ := ih hl
        exact ⟨a', List.mem_cons_of_mem a ha', he⟩
      · cases hpure

/-- Steps of which each can have one value only. -/
theorem mapM_eq_ok_iff_map {f : α → Except ε β} {g : α → β}
    (hfg : ∀ a b, f a = .ok b → b = g a) {l : List α} {bs : List β} :
    l.mapM f = .ok bs ↔ (∀ a ∈ l, ∃ b, f a = .ok b) ∧ bs = l.map g := by
  rw [mapM_eq_ok_iff]
  constructor
  · intro h
    induction h with
    | nil => exact ⟨by simp, rfl⟩
    | @cons a b l bs hab _ ih =>
      obtain ⟨hall, rfl⟩ := ih
      refine ⟨List.forall_mem_cons.2 ⟨⟨b, hab⟩, hall⟩, ?_⟩
      rw [List.map_cons, hfg a b hab]
  · rintro ⟨hall, rfl⟩
    rw [List.forall₂_map_right_iff, List.forall₂_same]
    intro a ha
    obtain ⟨b, hb⟩ := hall a ha
    rw [hb, hfg a b hb]

/-- A change of all values can be made behind the steps, errors stay what they are. -/
theorem mapM_eq_map_mapM {γ : Type} {f : α → Except ε β} {f' : α → Except ε γ} {h : β → γ}
    {l : List α} (hf : ∀ a ∈ l, f' a = (f a).map h) : l.mapM f' = (l.mapM f).map (List.map h) := by
  induction l with
  | nil => rfl
  | cons a l ih =>
    obtain ⟨ha, hl⟩ := List.forall_mem_cons.1 hf
    rw [List.mapM_cons, List.mapM_cons, ha, ih hl]
    cases f a with
    | error e => rfl
    | ok b =>
      cases l.mapM f with
      | error e => rfl
      | ok bs => rfl

/-- Steps that come to nothing can be left out. -/
theorem map_filterMap_mapM_filter {f : α → Except ε (Option β)} {p : α → Bool}
    (hp : ∀ a, p a = false → f a = .ok none) (l : List α) :
    ((l.filter p).mapM f).map (List.filterMap id) = (l.mapM f).map (List.filterMap id) := by
  induction l with
  | nil => rfl
  | cons a l ih =>
    rw [List.mapM_cons]
    by_cases ha : p a = true
    · rw [List.filter_cons_of_pos ha, List.mapM_cons]
      cases f a with
      | error e => rfl
      | ok b =>
        -- What follows the first step is the same in both lists.
        have hmap : ∀ x : Except ε (List (Option β)),
            (Except.ok b >>= fun b => x >>= fun bs => pure (b :: bs)).map (List.filterMap id) =
              (x.map (List.filterMap id)).map (b.toList ++ ·) := by
          intro x
          cases x <;> cases b <;> rfl
        rw [hmap, hmap, ih]
    · rw [List.filter_cons_of_neg ha, hp a (eq_false_of_ne_true ha), ih]
      cases l.mapM f <;> rfl

end ClassDiagram
