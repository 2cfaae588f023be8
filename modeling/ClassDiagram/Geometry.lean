/-!
# Rectangles on the canvas

Every object of a diagram is drawn in a rectangle.  A class belongs to a package when its
rectangle lies strictly inside the rectangle of the package (`Rectangle.Encloses`).
-/

namespace ClassDiagram

/-- A point of the canvas; `y` grows downwards. -/
structure Point where
  /-- The distance from the left edge. -/
  x : Float
  /-- The distance from the upper edge. -/
  y : Float
deriving Inhabited

/-- An upright rectangle, given by its upper left corner and its extent. -/
structure Rectangle where
  /-- The left edge. -/
  x : Float
  /-- The upper edge. -/
  y : Float
  /-- The extent to the right. -/
  width : Float
  /-- The extent downwards. -/
  height : Float
deriving Inhabited

namespace Rectangle

/-- The corner with the least coordinates. -/
def topLeft (r : Rectangle) : Point := ⟨r.x, r.y⟩

/-- The corner opposite to `topLeft`. -/
def bottomRight (r : Rectangle) : Point := ⟨r.x + r.width, r.y + r.height⟩

/-- Both corners of `inner` lie strictly inside `outer`.  A shared edge does not count, so no
rectangle encloses itself. -/
def Encloses (outer inner : Rectangle) : Prop :=
  outer.topLeft.x < inner.topLeft.x ∧ outer.topLeft.y < inner.topLeft.y ∧
    inner.bottomRight.x < outer.bottomRight.x ∧ inner.bottomRight.y < outer.bottomRight.y

instance (outer inner : Rectangle) : Decidable (outer.Encloses inner) :=
  inferInstanceAs (Decidable (_ ∧ _ ∧ _ ∧ _))

end Rectangle

end ClassDiagram
