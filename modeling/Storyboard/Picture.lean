/-!
# Pictures

A picture is a sheet of a colour with marks on it, in the order in which they
were made. Marks are placed in whole pixels; the corners of a polygon may lie
between pixels. What the marks look like pixel by pixel is left to whatever
shows the picture.

## Main definitions

* `Point`, `Frame`, `Color` — places, boxes and colours.
* `Mark`, `Picture` — marks, and the picture made of them.
-/

namespace Storyboard

/-- A place in whole pixels. -/
structure Point where
  x : Int
  y : Int
deriving DecidableEq, Repr

/-- A box in whole pixels: its top left corner and its size. -/
structure Frame where
  x : Int
  y : Int
  width : Int
  height : Int
deriving DecidableEq, Repr

/-- A colour by its red, green and blue parts. -/
structure Color where
  red : Nat
  green : Nat
  blue : Nat
deriving DecidableEq, Repr

/-- A place that may lie between pixels. -/
structure FinePoint where
  x : Float
  y : Float
deriving Repr

/-- A mark on a picture. -/
inductive Mark where
  /-- A filled rectangle between two opposite corners. -/
  | rectangle (corner opposite : Point) (fill : Color) (outline : Option Color) (width : Int)
  /-- A line through some points. -/
  | line (points : List Point) (fill : Color) (width : Int)
  /-- A text in a font of some size, with its top left corner at a place. -/
  | text (place : Point) (content : String) (fill : Color) (size : Int)
  /-- A filled polygon. -/
  | polygon (corners : List FinePoint) (fill : Color)
deriving Repr

/-- A sheet with marks on it, and the path it was saved to, if it was. -/
structure Picture where
  width : Int
  height : Int
  background : Color
  marks : List Mark := []
  savedAs : Option String := none
deriving Repr

end Storyboard
