import ClassDiagram.Dictionary

/-!
# The element tree of a drawing

A drawing is a tree of elements, each with a kind, attributes, text and children.  `descendants`
lists the elements below an element in document order, and `query` selects those of one kind and
one type among them.
-/

namespace ClassDiagram

/-- An element of a drawing. -/
structure Node where
  /-- The kind of the element, such as `object`, `attribute` or `string`. -/
  kind : String
  /-- The attributes of the element. -/
  attributes : Dictionary String
  /-- The text that stands directly in the element. -/
  text : String
  /-- The elements that stand directly in the element. -/
  children : List Node

namespace Node

/-! ### Parts -/

/-- An element without attributes, text and children. -/
def ofKind (kind : String) : Node := ⟨kind, Dictionary.empty, "", []⟩

instance : Inhabited Node := ⟨ofKind ""⟩

/-- The element with an attribute set. -/
def withAttribute (n : Node) (name value : String) : Node :=
  { n with attributes := n.attributes.insert name value }

/-- The element with the text `s` added to its text. -/
def addText (n : Node) (s : String) : Node :=
  { n with text := n.text ++ s }

/-- The element with `child` added after its children. -/
def addChild (n child : Node) : Node :=
  { n with children := n.children ++ [child] }

/-- The value of an attribute. -/
def attribute? (n : Node) (name : String) : Option String :=
  n.attributes.find? name

/-- The id by which other objects refer to this one. -/
def id? (n : Node) : Option String := n.attribute? "id"

/-- The type of an object or a record. -/
def type? (n : Node) : Option String := n.attribute? "type"

/-- How messages call the element: by its type, or else by its kind, and by its id if it has
one. -/
def describe (n : Node) : String :=
  let what := n.type?.getD n.kind
  match n.id? with
  | some id => what ++ " '" ++ id ++ "'"
  | none => what

/-! ### Document order -/

mutual

/-- The elements below an element, each before its own descendants. -/
def descendants : Node → List Node
  | ⟨_, _, _, children⟩ => descendantsList children

/-- The elements of a list of trees, each before its own descendants. -/
def descendantsList : List Node → List Node
  | [] => []
  | n :: ns => n :: (descendants n ++ descendantsList ns)

end

/-- The element and all elements below it, in document order. -/
def preorder (n : Node) : List Node := n :: n.descendants

/-- The element is of the kind `kind` and carries the type `type`. -/
def isA (n : Node) (kind type : String) : Bool :=
  n.kind = kind && n.type? = some type

/-- The elements of the kind `kind` and the type `type` below an element, in document order. -/
def query (n : Node) (kind type : String) : List Node :=
  n.descendants.filter fun d => d.isA kind type

theorem descendantsList_eq (ns : List Node) : descendantsList ns = ns.flatMap preorder := by
  induction ns with
  | nil => simp [descendantsList]
  | cons n ns ih => simp [descendantsList, preorder, ih]

theorem descendants_eq (n : Node) : n.descendants = n.children.flatMap preorder := by
  cases n
  rw [descendants, descendantsList_eq]

end Node

end ClassDiagram
