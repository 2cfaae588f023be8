import ClassDiagram.Proofs.Text.Cut
import ClassDiagram.Stereotype.Member

/-!
# Names and bindings of members

The text of a member is read in two steps: a stereotype in guillemets is taken off it
(`splitMemberName_eq_iff`), and the role of an association is then cut at its first colon into a
name and a type (`splitRoleType_eq_iff`).  The mutability of the owner decides how a member is
bound, and refuses stereotypes that contradict it (`bindMember_eq_ok_iff`).
-/

namespace ClassDiagram.Stereotype

open Text

/-! ### Texts -/

/-- The text of a member has a stereotype in guillemets before its name, or else it is all name.
The guillemets end where they are first closed. -/
inductive NamesMember (text : String) : MemberName → Prop
  | marked {inner stereotype name : List Char} (hopen : trim text.toList = "<<".toList ++ inner)
      (hclose : FirstCut ">>".toList inner stereotype name) :
      NamesMember text ⟨some (String.ofList (trim stereotype)), String.ofList (trim name)⟩
  | plain (h : ∀ stereotype name,
        trim text.toList ≠ "<<".toList ++ (stereotype ++ ">>".toList ++ name)) :
      NamesMember text ⟨none, trimmed text⟩

theorem splitMemberName_eq_iff {text : String} {member : MemberName} :
    splitMemberName text = member ↔ NamesMember text member := by
  have hopen : ∀ {inner}, "<<".toList.isPrefixOf? (trim text.toList) = some inner ↔
      "<<".toList ++ inner = trim text.toList := List.isPrefixOf?_eq_some_iff_append_eq
  rw [splitMemberName]
  cases hinner : "<<".toList.isPrefixOf? (trim text.toList) with
  | none =>
    have hplain : ∀ inner, trim text.toList ≠ "<<".toList ++ inner := fun inner h => by
      rw [hopen.2 h.symm] at hinner
      cases hinner
    constructor
    · rintro rfl
      exact .plain fun _ _ => hplain _
    · rintro (⟨h, -⟩ | -)
      · exact absurd h (hplain _)
      · rfl
  | some inner =>
    have hinner := hopen.1 hinner
    rw [Option.bind_some]
    cases hcut : cutAt ">>".toList inner with
    | none =>
      have hnot := cutAt_eq_none_iff.1 hcut
      constructor
      · rintro rfl
        refine .plain fun stereotype name h => ?_
        exact hnot stereotype name (List.append_cancel_left (hinner.trans h))
      · rintro (⟨h, hclose⟩ | -)
        · obtain rfl := List.append_cancel_left (hinner.trans h)
          exact absurd hclose.eq_append (hnot _ _)
        · rfl
    | some parts =>
      obtain ⟨stereotype, name⟩ := parts
      have hfirst := cutAt_eq_some_iff.1 hcut
      constructor
      · rintro rfl
        exact .marked hinner.symm hfirst
      · rintro (⟨h, hclose⟩ | h)
        · obtain rfl := List.append_cancel_left (hinner.trans h)
          obtain ⟨rfl, rfl⟩ := hfirst.unique hclose
          rfl
        · rw [hfirst.eq_append] at hinner
          exact absurd hinner.symm (h _ _)

/-- What is left of a role without its stereotype has a type behind its first colon, unless nothing
but white space stands there, or else it is all name. -/
inductive NamesRole (text : String) : String → Option String → Prop
  | typed {name type : List Char} (hcut : text.toList = name ++ ':' :: type) (hname : ':' ∉ name)
      (htype : isBlank type = false) :
      NamesRole text (String.ofList (trim name)) (some (String.ofList (trim type)))
  | untyped {name type : List Char} (hcut : text.toList = name ++ ':' :: type) (hname : ':' ∉ name)
      (htype : isBlank type = true) : NamesRole text (String.ofList (trim name)) none
  | bare (h : ':' ∉ text.toList) : NamesRole text (trimmed text) none

theorem splitRoleType_eq_iff {text name : String} {type : Option String} :
    splitRoleType text = (name, type) ↔ NamesRole text name type := by
  rw [splitRoleType]
  cases hcut : cutAt [':'] text.toList with
  | none =>
    have hbare := cutAt_singleton_eq_none_iff.1 hcut
    constructor
    · intro h
      obtain ⟨rfl, rfl⟩ := Prod.mk.inj h
      exact .bare hbare
    · rintro (⟨h, -, -⟩ | ⟨h, -, -⟩ | -)
      · exact absurd (by simp [h]) hbare
      · exact absurd (by simp [h]) hbare
      · rfl
  | some parts =>
    obtain ⟨before, after⟩ := parts
    have hfirst := cutAt_singleton_eq_some_iff.1 hcut
    have hunique : ∀ {x y : List Char}, text.toList = x ++ ':' :: y → ':' ∉ x →
        before = x ∧ after = y := fun h hx =>
      (firstCut_singleton_iff.2 hfirst).unique (firstCut_singleton_iff.2 ⟨h, hx⟩)
    constructor
    · intro h
      obtain ⟨rfl, rfl⟩ := Prod.mk.inj h
      split_ifs with hblank
      · exact .untyped hfirst.1 hfirst.2 hblank
      · exact .typed hfirst.1 hfirst.2 (eq_false_of_ne_true hblank)
    · rintro (⟨h, hname, hblank⟩ | ⟨h, hname, hblank⟩ | h)
      · obtain ⟨rfl, rfl⟩ := hunique h hname
        simp [hblank]
      · obtain ⟨rfl, rfl⟩ := hunique h hname
        simp [hblank]
      · rw [hfirst.1] at h
        simp at h

/-! ### Bindings -/

/-- An attribute with the stereotype, or with none, is bound in this way in an entity of the given
mutability.  The mutability decides, and no stereotype may contradict it. -/
structure BindsAs (stereotype : Option String) (mutability : Option Mutability)
    (flags : MemberFlags) : Prop where
  isLazy_iff : flags.isLazy = true ↔ stereotype = some "lazy"
  isVal_iff : mutability = none → (flags.isVal = true ↔ stereotype ≠ some "var")
  of_mutable : mutability = some .mutable →
    flags.isVal = false ∧ stereotype ≠ some "val" ∧ stereotype ≠ some "lazy"
  of_immutable : mutability = some .immutable → flags.isVal = true ∧ stereotype ≠ some "var"

variable {stereotype : Option String} {mutability : Option Mutability} {flags flags' : MemberFlags}

theorem BindsAs.unique (h : BindsAs stereotype mutability flags)
    (h' : BindsAs stereotype mutability flags') : flags = flags' := by
  have hlazy : flags.isLazy = flags'.isLazy :=
    Bool.eq_iff_iff.2 (h.isLazy_iff.trans h'.isLazy_iff.symm)
  have hval : flags.isVal = flags'.isVal := by
    cases hm : mutability with
    | none => exact Bool.eq_iff_iff.2 ((h.isVal_iff hm).trans (h'.isVal_iff hm).symm)
    | some mutability =>
      cases mutability with
      | mutable => exact (h.of_mutable hm).1.trans (h'.of_mutable hm).1.symm
      | immutable => exact (h.of_immutable hm).1.trans (h'.of_immutable hm).1.symm
  cases flags
  cases flags'
  exact congrArg₂ MemberFlags.mk hval hlazy

theorem BindsAs.ok_eq_ok_iff (h : BindsAs stereotype mutability flags) :
    (.ok flags : Except ModelError MemberFlags) = .ok flags' ↔
      BindsAs stereotype mutability flags' := by
  constructor
  · intro heq
    cases heq
    exact h
  · intro h'
    rw [h.unique h']

theorem bindsAs_ofBinding {binding : Binding}
    (hlazy : binding.isLazy = true ↔ stereotype = some "lazy")
    (hval : binding.isVal = true ↔ stereotype ≠ some "var")
    (hmutable : mutability = some .mutable → stereotype ≠ some "val" ∧ stereotype ≠ some "lazy")
    (himmutable : mutability = some .immutable → stereotype ≠ some "var") :
    BindsAs stereotype mutability (.ofBinding binding mutability) := by
  refine ⟨hlazy, ?_, ?_, ?_⟩
  · rintro rfl
    exact hval
  · rintro rfl
    exact ⟨rfl, hmutable rfl⟩
  · rintro rfl
    exact ⟨rfl, himmutable rfl⟩

/-- The words that name bindings. -/
theorem ofStereotype?_eq_some_iff {token : String} {binding : Binding} :
    Binding.ofStereotype? token = some binding ↔
      token = "val" ∧ binding = .val ∨ token = "var" ∧ binding = .var ∨
        token = "lazy" ∧ binding = .lazyVal := by
  unfold Binding.ofStereotype?
  split_ifs <;> simp_all [eq_comm]

/-- Which words an entity of the given mutability does not allow. -/
theorem any_contradicts_eq_false_iff {token : String} {binding : Binding}
    (h : Binding.ofStereotype? token = some binding) :
    mutability.any binding.contradicts = false ↔
      (mutability = some .mutable → some token ≠ some "val" ∧ some token ≠ some "lazy") ∧
        (mutability = some .immutable → some token ≠ some "var") := by
  rcases ofStereotype?_eq_some_iff.1 h with ⟨rfl, rfl⟩ | ⟨rfl, rfl⟩ | ⟨rfl, rfl⟩ <;>
    rcases mutability with _ | _ | _ <;> decide

/-- A member is bound in the only way that its stereotype and the mutability of its owner allow. -/
theorem bindMember_eq_ok_iff {owner name : String} :
    (bindMember owner mutability name stereotype).result = .ok flags ↔
      BindsAs stereotype mutability flags := by
  cases stereotype with
  | none =>
    have hbinds : BindsAs none mutability (.ofBinding .val mutability) :=
      bindsAs_ofBinding (by decide) (by decide) (by simp) (by simp)
    exact hbinds.ok_eq_ok_iff
  | some token =>
    rw [bindMember]
    cases hbinding : Binding.ofStereotype? token with
    | none =>
      have hval : token ≠ "val" := by rintro rfl; cases hbinding
      have hvar : token ≠ "var" := by rintro rfl; cases hbinding
      have hlazy : token ≠ "lazy" := by rintro rfl; cases hbinding
      refine (bindsAs_ofBinding ?_ ?_ ?_ ?_).ok_eq_ok_iff
      · simp [Binding.isLazy, hlazy]
      · simp [Binding.isVal, hvar]
      · simp [hval, hlazy]
      · simp [hvar]
    | some binding =>
      have hagrees := @any_contradicts_eq_false_iff mutability _ _ hbinding
      dsimp only
      split_ifs with hcontradicts
      · refine iff_of_false (fun h => by cases h) fun h => ?_
        rw [hagrees.2 ⟨fun hm => (h.of_mutable hm).2, fun hm => (h.of_immutable hm).2⟩]
          at hcontradicts
        cases hcontradicts
      · obtain ⟨hmutable, himmutable⟩ := hagrees.1 (eq_false_of_ne_true hcontradicts)
        refine (bindsAs_ofBinding ?_ ?_ hmutable himmutable).ok_eq_ok_iff
        all_goals
          rcases ofStereotype?_eq_some_iff.1 hbinding with ⟨rfl, rfl⟩ | ⟨rfl, rfl⟩ | ⟨rfl, rfl⟩ <;>
            decide

end ClassDiagram.Stereotype
