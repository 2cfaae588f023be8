import ClassDiagram.TypeExpr.Builtin

/-!
# Type expressions

The types of attributes, parameters and operations.  The leaves of a type are builtin types and
references to entities; only the references (`leaves`) carry a package.  Replacing the references
visits them in the order in which `leaves` lists them and keeps the shape of the type
(`mapLeavesM`, `mapLeaves`).
-/

namespace ClassDiagram

/-! ### References -/

/-- The name of an entity with the package it belongs to.  An empty package means that the name
is not qualified. -/
structure EntityRef where
  /-- The name of the entity. -/
  name : String
  /-- The package, empty if there is none or it is not known. -/
  package : String
deriving DecidableEq, Inhabited

namespace EntityRef

/-- A reference by name only. -/
def unqualified (name : String) : EntityRef := ⟨name, ""⟩

/-- The reference names a package. -/
def isQualified (r : EntityRef) : Bool := r.package ≠ ""

/-- The same name in another package. -/
def withPackage (r : EntityRef) (package : String) : EntityRef := ⟨r.name, package⟩

/-- The package, a dot and the name; the name alone without a package. -/
def qualifiedName (r : EntityRef) : String :=
  if r.package = "" then r.name else r.package ++ "." ++ r.name

end EntityRef

/-! ### Types -/

/-- A type expression. -/
inductive TypeExpr where
  /-- No type at all. -/
  | empty
  /-- A builtin type. -/
  | builtin (b : Builtin)
  /-- A reference to an entity. -/
  | user (reference : EntityRef)
  /-- A type applied to parameters. -/
  | generic (base : TypeExpr) (params : List TypeExpr)
  /-- A function. -/
  | function (inputs : List TypeExpr) (output : TypeExpr)
  /-- A tuple. -/
  | tuple (items : List TypeExpr)
deriving Inhabited

namespace TypeExpr

/-- A sequence of values of the type. -/
def seqOf (t : TypeExpr) : TypeExpr := generic (builtin .seq) [t]

/-- A value of the type or none. -/
def optionOf (t : TypeExpr) : TypeExpr := generic (builtin .option) [t]

/-- Generic types, functions and tuples. -/
def isContainer : TypeExpr → Bool
  | generic _ _ | function _ _ | tuple _ => true
  | empty | builtin _ | user _ => false

/-- Builtin types and references. -/
def isAtom : TypeExpr → Bool
  | builtin _ | user _ => true
  | empty | generic _ _ | function _ _ | tuple _ => false

/-- The reference, if the type is one. -/
def reference? : TypeExpr → Option EntityRef
  | user r => some r
  | _ => none

/-! ### Equality -/

mutual

/-- Equality of types can be decided. -/
def decEq : (s t : TypeExpr) → Decidable (s = t)
  | empty, empty => isTrue rfl
  | builtin a, builtin b =>
    if h : a = b then isTrue (by rw [h]) else isFalse fun e => h (by injection e)
  | user a, user b =>
    if h : a = b then isTrue (by rw [h]) else isFalse fun e => h (by injection e)
  | generic a as, generic b bs =>
    match decEq a b, decEqList as bs with
    | isTrue h, isTrue hs => isTrue (by rw [h, hs])
    | isFalse h, _ => isFalse fun e => h (by injection e)
    | _, isFalse hs => isFalse fun e => hs (by injection e)
  | function as a, function bs b =>
    match decEqList as bs, decEq a b with
    | isTrue hs, isTrue h => isTrue (by rw [hs, h])
    | isFalse hs, _ => isFalse fun e => hs (by injection e)
    | _, isFalse h => isFalse fun e => h (by injection e)
  | tuple as, tuple bs =>
    match decEqList as bs with
    | isTrue hs => isTrue (by rw [hs])
    | isFalse hs => isFalse fun e => hs (by injection e)
  | empty, builtin _ | empty, user _ | empty, generic _ _ | empty, function _ _
  | empty, tuple _ | builtin _, empty | builtin _, user _ | builtin _, generic _ _
  | builtin _, function _ _ | builtin _, tuple _ | user _, empty | user _, builtin _
  | user _, generic _ _ | user _, function _ _ | user _, tuple _ | generic _ _, empty
  | generic _ _, builtin _ | generic _ _, user _ | generic _ _, function _ _
  | generic _ _, tuple _ | function _ _, empty | function _ _, builtin _
  | function _ _, user _ | function _ _, generic _ _ | function _ _, tuple _
  | tuple _, empty | tuple _, builtin _ | tuple _, user _ | tuple _, generic _ _
  | tuple _, function _ _ => isFalse fun e => by injection e

/-- Equality of lists of types can be decided. -/
def decEqList : (ss ts : List TypeExpr) → Decidable (ss = ts)
  | [], [] => isTrue rfl
  | s :: ss, t :: ts =>
    match decEq s t, decEqList ss ts with
    | isTrue h, isTrue hs => isTrue (by rw [h, hs])
    | isFalse h, _ => isFalse fun e => h (by injection e)
    | _, isFalse hs => isFalse fun e => hs (by injection e)
  | [], _ :: _ | _ :: _, [] => isFalse fun e => by injection e

end

instance : DecidableEq TypeExpr := decEq

/-! ### Leaves -/

mutual

/-- The references in a type, from left to right. -/
def leaves : TypeExpr → List EntityRef
  | empty | builtin _ => []
  | user r => [r]
  | generic base params => leaves base ++ leavesList params
  | function inputs output => leavesList inputs ++ leaves output
  | tuple items => leavesList items

/-- The references in a list of types, from left to right. -/
def leavesList : List TypeExpr → List EntityRef
  | [] => []
  | t :: ts => leaves t ++ leavesList ts

end

section Traversal

variable {m : Type → Type} [Monad m] (f : EntityRef → m EntityRef)

mutual

/-- The type with every reference replaced by what the action `f` makes of it.  The actions run
once for each reference, from left to right. -/
def mapLeavesM : TypeExpr → m TypeExpr
  | empty => pure empty
  | builtin b => pure (builtin b)
  | user r => do return user (← f r)
  | generic base params => do
    let base ← mapLeavesM base
    return generic base (← mapLeavesListM params)
  | function inputs output => do
    let inputs ← mapLeavesListM inputs
    return function inputs (← mapLeavesM output)
  | tuple items => do return tuple (← mapLeavesListM items)

/-- The types with every reference replaced by what the action `f` makes of it. -/
def mapLeavesListM : List TypeExpr → m (List TypeExpr)
  | [] => pure []
  | t :: ts => do
    let t ← mapLeavesM t
    return t :: (← mapLeavesListM ts)

end

end Traversal

/-- The type with `f` applied to every reference. -/
def mapLeaves (f : EntityRef → EntityRef) (t : TypeExpr) : TypeExpr :=
  Id.run (mapLeavesM (fun r => pure (f r)) t)

section MapLeaves

variable (f : EntityRef → EntityRef)

/-- The types with `f` applied to every reference. -/
def mapLeavesList (ts : List TypeExpr) : List TypeExpr :=
  Id.run (mapLeavesListM (fun r => pure (f r)) ts)

@[simp] theorem mapLeaves_empty : mapLeaves f empty = empty := rfl

/-- Builtin types have no leaves. -/
@[simp] theorem mapLeaves_builtin (b : Builtin) : mapLeaves f (builtin b) = builtin b := rfl

/-- A leaf is replaced by its image. -/
@[simp] theorem mapLeaves_user (r : EntityRef) : mapLeaves f (user r) = user (f r) := rfl

@[simp] theorem mapLeaves_generic (base : TypeExpr) (params : List TypeExpr) :
    mapLeaves f (generic base params) = generic (mapLeaves f base) (mapLeavesList f params) := rfl

@[simp] theorem mapLeaves_function (inputs : List TypeExpr) (output : TypeExpr) :
    mapLeaves f (function inputs output) =
      function (mapLeavesList f inputs) (mapLeaves f output) := rfl

@[simp] theorem mapLeaves_tuple (items : List TypeExpr) :
    mapLeaves f (tuple items) = tuple (mapLeavesList f items) := rfl

@[simp] theorem mapLeavesList_nil : mapLeavesList f [] = [] := rfl

@[simp] theorem mapLeavesList_cons (t : TypeExpr) (ts : List TypeExpr) :
    mapLeavesList f (t :: ts) = mapLeaves f t :: mapLeavesList f ts := rfl

end MapLeaves

end TypeExpr

end ClassDiagram
