/-!
# Builtin types

The types that need no entity on the diagram: the primitive types, and the collections and
wrappers that take parameters.  Their names are exact; `ofName?_eq_some_iff` says that a name is
recognized just when it is the name of a builtin type.
-/

namespace ClassDiagram

/-- The primitive types, and the collections and wrappers. -/
inductive Builtin where
  | any | anyRef | anyVal | nothing | null | unit | boolean | byte | short | char | int | long
  | float | double | string | bigInt | bigDecimal
  | option | either | seq | list | vector | set | map | array | iterable | iterator | future
deriving DecidableEq

namespace Builtin

/-- The name that a type expression uses. -/
def name : Builtin → String
  | any => "Any"
  | anyRef => "AnyRef"
  | anyVal => "AnyVal"
  | nothing => "Nothing"
  | null => "Null"
  | unit => "Unit"
  | boolean => "Boolean"
  | byte => "Byte"
  | short => "Short"
  | char => "Char"
  | int => "Int"
  | long => "Long"
  | float => "Float"
  | double => "Double"
  | string => "String"
  | bigInt => "BigInt"
  | bigDecimal => "BigDecimal"
  | option => "Option"
  | either => "Either"
  | seq => "Seq"
  | list => "List"
  | vector => "Vector"
  | set => "Set"
  | map => "Map"
  | array => "Array"
  | iterable => "Iterable"
  | iterator => "Iterator"
  | future => "Future"

/-- Every builtin type. -/
def all : List Builtin :=
  [any, anyRef, anyVal, nothing, null, unit, boolean, byte, short, char, int, long, float, double,
    string, bigInt, bigDecimal, option, either, seq, list, vector, set, map, array, iterable,
    iterator, future]

/-- The builtin type of a name. -/
def ofName? (n : String) : Option Builtin :=
  all.find? fun b => b.name = n

theorem mem_all (b : Builtin) : b ∈ all := by
  cases b <;> decide

theorem name_injective {a b : Builtin} (h : a.name = b.name) : a = b := by
  have key : ∀ a ∈ all, ∀ b ∈ all, a.name = b.name → a = b := by decide +kernel
  exact key a (mem_all a) b (mem_all b) h

/-- Names and builtin types correspond. -/
theorem ofName?_eq_some_iff {n : String} {b : Builtin} : ofName? n = some b ↔ b.name = n := by
  constructor
  · intro h
    simpa [ofName?] using List.find?_some h
  · intro h
    have hs : (ofName? n).isSome := by
      rw [ofName?, List.find?_isSome]
      exact ⟨b, mem_all b, by simp [h]⟩
    obtain ⟨c, hc⟩ := Option.isSome_iff_exists.1 hs
    have hn : c.name = n := by simpa [ofName?] using List.find?_some hc
    rw [hc, name_injective (h.trans hn.symm)]

end Builtin

end ClassDiagram
