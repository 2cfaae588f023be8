import ClassDiagram.Drawing.Compose
import ClassDiagram.Proofs.Number.Integer
import ClassDiagram.Proofs.Outcome.Except

/-!
# Payloads that are composed and read

An element reads back what it was given under a name, unless an earlier child stands under this
name, which is then found instead (`namedChild?_addChild_named`).  The rest is a matter of the text
of the payload: the sharps around a string are taken off again and no others (`unfenced?_fence`),
and codes and handles are read from their digits (`int64?_toString`, `word64?_toString`).

Connections are read back one by one (`connection_ofConnection`).  The target of a handle is that of
the first connection with this handle (`connectionTarget_eq_ok_iff`), and it is missing where there
is none (`connectionTarget_of_forall`).  Put together, this is `reads_composed`.
-/

namespace ClassDiagram.Node

open Text Number

variable {n : Node} {name : String}

@[simp] theorem kind_withAttribute (n : Node) (name value : String) :
    (n.withAttribute name value).kind = n.kind := rfl

theorem attribute?_withAttribute (n : Node) (name other value : String) :
    (n.withAttribute name value).attribute? other =
      if other = name then some value else n.attribute? other :=
  Dictionary.find?_insert n.attributes name other value

theorem attribute?_addChild (n child : Node) (name : String) :
    (n.addChild child).attribute? name = n.attribute? name := rfl

/-! ### Named children -/

/-- The element has no named child of this name. -/
def Lacks (n : Node) (name : String) : Prop :=
  ∀ c ∈ n.children, c.kind = "attribute" → c.attribute? "name" ≠ some name

instance (n : Node) (name : String) : Decidable (n.Lacks name) :=
  inferInstanceAs (Decidable (∀ c ∈ n.children, _))

theorem namedChild?_eq_none_iff : n.namedChild? name = none ↔ n.Lacks name := by
  simp [namedChild?, Lacks]

theorem namedChild?_addChild_named (h : n.Lacks name) (p : Node) :
    (n.addChild (named name p)).namedChild? name = some (named name p) := by
  have hnone : n.namedChild? name = none := namedChild?_eq_none_iff.2 h
  have hname : (named name p).attribute? "name" = some name := by
    rw [named, attribute?_addChild, attribute?_withAttribute, if_pos rfl]
  have hkind : (named name p).kind = "attribute" := rfl
  unfold namedChild? at hnone ⊢
  rw [addChild, List.find?_append, hnone, Option.none_or, List.find?_singleton]
  exact if_pos (by simp [hkind, hname])

/-! ### Payloads -/

theorem payload_addChild_named (h : n.Lacks name) {p : Node} {expected : PayloadKind}
    (hp : p.kind = expected.name) :
    (n.addChild (named name p)).payload name expected = .ok p := by
  have hchild : (named name p).children.head? = some p := rfl
  rw [payload, namedChild?_addChild_named h, Option.bind_some, hchild]
  exact if_pos hp

theorem payloadValue_addChild_ofValue (h : n.Lacks name) (expected : PayloadKind)
    (value : String) :
    (n.addChild (named name (ofValue expected value))).payloadValue name expected =
      .ok value := by
  have hvalue : (ofValue expected value).attribute? "val" = some value := by
    rw [ofValue, attribute?_withAttribute, if_pos rfl]
  refine bind_eq_ok_iff.2 ⟨ofValue expected value, payload_addChild_named h rfl, ?_⟩
  rw [hvalue]
  rfl

theorem payloadAs_addChild_ofValue {α : Type} (h : n.Lacks name) {expected : PayloadKind}
    {value : String} {read? : List Char → Option α} {a : α} (hread : read? value.toList = some a) :
    (n.addChild (named name (ofValue expected value))).payloadAs name expected read? = .ok a := by
  refine bind_eq_ok_iff.2 ⟨value, payloadValue_addChild_ofValue h expected value, ?_⟩
  rw [hread]
  rfl

/-- Only the two outer sharps are taken off, whatever stands between them. -/
theorem unfenced?_fence (s : List Char) : unfenced? ('#' :: (s ++ ['#'])) = some s := by
  simp [unfenced?]

theorem string_addChild_named (h : n.Lacks name) (value : String) :
    (n.addChild (named name (ofString value))).string name = .ok value := by
  have htext : (ofString value).text.toList = '#' :: (value.toList ++ ['#']) := by
    simp [ofString, addText, ofKind]
  refine bind_eq_ok_iff.2 ⟨ofString value, payload_addChild_named h rfl, ?_⟩
  rw [htext, unfenced?_fence]
  dsimp only
  rw [String.ofList_toList]
  rfl

theorem enumeration_addChild_named (h : n.Lacks name) (code : Int64) :
    (n.addChild (named name (ofCode code))).enumeration name = .ok code :=
  payloadAs_addChild_ofValue h (by rw [trim_toString_int, int64?_toString])

theorem boolean_addChild_named (h : n.Lacks name) (b : Bool) :
    (n.addChild (named name (ofBool b))).boolean name = .ok b :=
  payloadAs_addChild_ofValue h (by cases b <;> decide)

/-! ### Connections -/

/-- A connection is read back from its element. -/
theorem connection_ofConnection (n : Node) (c : Connection) :
    n.connection (ofConnection c) = .ok c := by
  have hhandle : (ofConnection c).attribute? "handle" = some (toString c.handle.toNat) := by
    rw [ofConnection, attribute?_withAttribute, if_neg (by decide), attribute?_withAttribute,
      if_pos rfl]
  have htarget : (ofConnection c).attribute? "to" = some c.target := by
    rw [ofConnection, attribute?_withAttribute, if_pos rfl]
  have hword : word64? (trim (toString c.handle.toNat).toList) = some c.handle := by
    rw [Nat.toString_eq_repr, trim_repr, ← Nat.toString_eq_repr, word64?_toString]
  rw [connection, hhandle]
  dsimp only
  rw [hword]
  dsimp only
  rw [htarget]
  rfl

theorem connections_addChild (h : ∀ c ∈ n.children, c.kind ≠ "connections")
    (cs : List Connection) : (n.addChild (ofConnections cs)).connections = .ok cs := by
  have hfind : (n.addChild (ofConnections cs)).children.find?
      (fun c => c.kind = "connections") = some (ofConnections cs) := by
    have hnone : n.children.find? (fun c => c.kind = "connections") = none := by
      simpa using h
    rw [addChild, List.find?_append, hnone, Option.none_or, List.find?_singleton]
    rfl
  have hkept : (cs.map ofConnection).filter (fun d => d.kind = "connection") =
      cs.map ofConnection := by
    rw [List.filter_eq_self]
    simp [ofConnection, ofKind]
  rw [connections, hfind]
  dsimp only
  rw [ofConnections, hkept, mapM_eq_ok_iff, List.forall₂_map_left_iff, List.forall₂_same]
  exact fun c _ => connection_ofConnection _ c

/-- A handle is attached to the target of the first connection with this handle. -/
theorem connectionTarget_eq_ok_iff {cs : List Connection} (h : n.connections = .ok cs)
    (handle : UInt64) (target : String) :
    n.connectionTarget handle = .ok target ↔
      ∃ before after, cs = before ++ ⟨handle, target⟩ :: after ∧
        ∀ c ∈ before, c.handle ≠ handle := by
  have hfirst : n.connectionTarget handle = .ok target ↔
      cs.find? (fun c => c.handle = handle) = some ⟨handle, target⟩ := by
    rw [connectionTarget, h, bind_eq_ok_iff]
    simp only [Except.ok.injEq, exists_eq_left']
    cases hfind : cs.find? fun c => c.handle = handle with
    | none => simp [throw, throwThe, MonadExceptOf.throw]
    | some c =>
      obtain rfl : c.handle = handle := by simpa using List.find?_some hfind
      obtain ⟨h, t⟩ := c
      simp [pure, Except.pure]
  rw [hfirst, List.find?_eq_some_iff_append]
  simp

theorem connectionTarget_of_forall {cs : List Connection} (h : n.connections = .ok cs)
    {handle : UInt64} (habsent : ∀ c ∈ cs, c.handle ≠ handle) :
    n.connectionTarget handle =
      .error (.missingChild ("connection handle " ++ toString handle.toNat) n.describe) := by
  have hnone : cs.find? (fun c => c.handle = handle) = none := by
    simpa using habsent
  rw [connectionTarget, h, bind_eq_error_iff]
  refine .inr ⟨cs, rfl, ?_⟩
  rw [hnone]
  rfl

/-! ### What was composed -/

/-- An element without a named child of the name `name` reads back any string, any code and any
truth value that it is given under this name.  An element without connections reads back the
connections that it is given, and finds the target of a handle at the first of them with this
handle. -/
theorem reads_composed (n : Node) :
    (∀ name, n.Lacks name →
      (∀ value : String, (n.addChild (named name (ofString value))).string name = .ok value) ∧
      (∀ code : Int64, (n.addChild (named name (ofCode code))).enumeration name = .ok code) ∧
      ∀ b : Bool, (n.addChild (named name (ofBool b))).boolean name = .ok b) ∧
    ((∀ c ∈ n.children, c.kind ≠ "connections") → ∀ cs : List Connection,
      (n.addChild (ofConnections cs)).connections = .ok cs ∧
      ∀ handle : UInt64,
        (∀ target, (n.addChild (ofConnections cs)).connectionTarget handle = .ok target ↔
          ∃ before after, cs = before ++ ⟨handle, target⟩ :: after ∧
            ∀ c ∈ before, c.handle ≠ handle) ∧
        ((∀ c ∈ cs, c.handle ≠ handle) →
          (n.addChild (ofConnections cs)).connectionTarget handle =
            .error (.missingChild ("connection handle " ++ toString handle.toNat) n.describe))) := by
  constructor
  · intro name hlacks
    exact ⟨string_addChild_named hlacks, enumeration_addChild_named hlacks,
      boolean_addChild_named hlacks⟩
  · intro hnone cs
    have hcs := connections_addChild hnone cs
    refine ⟨hcs, fun handle => ⟨connectionTarget_eq_ok_iff hcs handle, fun habsent => ?_⟩⟩
    exact connectionTarget_of_forall hcs habsent

/-- An edge with a name and a note beside it. -/
def namedEdge : Node :=
  ((object "UML - Association" "O9").addChild (named "name" (ofString "owns"))).addChild
    (ofKind "note")

/-- Two connections of the same handle, and one of the greatest handle. -/
def threeConnections : List Connection :=
  [⟨0, "O1"⟩, ⟨0, "O2"⟩, ⟨18446744073709551615, ""⟩]

/-- Sharps and quotes in a string, the empty string, the least code, and connections of which the
first one of a handle counts. -/
theorem reads_composed_namedEdge :
    (namedEdge.Lacks "label" ∧ ∀ c ∈ namedEdge.children, c.kind ≠ "connections") ∧
    (namedEdge.addChild (named "label" (ofString "#\"1\"#"))).string "label" = .ok "#\"1\"#" ∧
    (namedEdge.addChild (named "label" (ofString ""))).string "label" = .ok "" ∧
    (namedEdge.addChild (named "label" (ofCode Int64.minValue))).enumeration "label" =
      .ok Int64.minValue ∧
    (namedEdge.addChild (named "label" (ofBool false))).boolean "label" = .ok false ∧
    (namedEdge.addChild (ofConnections threeConnections)).connections = .ok threeConnections ∧
    (namedEdge.addChild (ofConnections threeConnections)).connectionTarget 0 = .ok "O1" ∧
    (namedEdge.addChild (ofConnections threeConnections)).connectionTarget 1 =
      .error (.missingChild "connection handle 1" "UML - Association 'O9'") := by
  have hlacks : namedEdge.Lacks "label" := by decide
  have hnone : ∀ c ∈ namedEdge.children, c.kind ≠ "connections" := by decide
  obtain ⟨hstring, hcode, hbool⟩ := (reads_composed namedEdge).1 "label" hlacks
  have hconnections := (reads_composed namedEdge).2 hnone
  refine ⟨⟨hlacks, hnone⟩, hstring _, hstring _, hcode _, hbool _, (hconnections _).1, ?_, ?_⟩
  · exact (((hconnections _).2 0).1 "O1").2 ⟨[], threeConnections.tail, rfl, by simp⟩
  · have habsent : ∀ c ∈ threeConnections, c.handle ≠ 1 := by decide
    exact ((hconnections _).2 1).2 habsent

end ClassDiagram.Node
