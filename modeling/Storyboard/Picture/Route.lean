import Storyboard.Picture
import Storyboard.Picture.Fine

/-!
# Routes of connectors

A connector between two boxes runs straight between their centres and is cut
off at their borders. A connector from a box to itself runs around its right
side. The head of an arrow is a triangle at its tip.

Centres and cuts are worked out in floating point and then cut off towards
zero to whole pixels; a box too far out for floating point has no such place.

## Main definitions

* `Frame.centre`, `Frame.exit` — the centre of a box, and where a line from it
  leaves the box.
* `Route` — the way of a connector.
* `arrowhead` — the head of an arrow.
-/

namespace Storyboard

namespace Frame

/-- The middle of a side that starts at a place. -/
def middle (start side : Int) : Except Fault Float := do
  let half ← Fine.half side
  let first ← Fine.ofInt start
  pure (first + half)

/-- The centre of a box. -/
def centre (f : Frame) : Except Fault FinePoint := do
  let x ← middle f.x f.width
  let y ← middle f.y f.height
  pure ⟨x, y⟩

/-- How far along a direction one half side reaches. -/
def reach (side : Int) (d : Float) : Except Fault Float :=
  (Fine.half side).map (· / d.abs)

/-- How far along a line from the centre of a box the box reaches: as far as
its nearer side, of the sides that the line comes closer to. -/
def reachAlong (f : Frame) (dx dy : Float) : Except Fault Float :=
  if dx == 0 then reach f.height dy
  else if dy == 0 then reach f.width dx
  else do
    let across ← reach f.width dx
    let down ← reach f.height dy
    pure (if down < across then down else across)

/-- A place between pixels moved to a whole pixel. -/
def wholePixel (p : FinePoint) : Except Fault Point := do
  let x ← Fine.truncate p.x
  let y ← Fine.truncate p.y
  pure ⟨x, y⟩

/-- Where the line from the centre of a box towards a place leaves the box;
the centre itself if the place is there. -/
def exit (f : Frame) (toward : FinePoint) : Except Fault Point := do
  let c ← f.centre
  let dx := toward.x - c.x
  let dy := toward.y - c.y
  if dx == 0 && dy == 0 then wholePixel c
  else
    let t ← f.reachAlong dx dy
    wholePixel ⟨c.x + dx * t, c.y + dy * t⟩

end Frame

/-- The way of a connector: a first part, a middle stretch that carries the
label, and the tip with the point before it. -/
structure Route where
  points : List Point
  middle : Point × Point
  beforeTip : Point
  tip : Point
deriving DecidableEq, Repr

namespace Route

/-- The straight way from one box to another. -/
def straight (source target : Frame) : Except Fault Route := do
  let a ← source.exit (← target.centre)
  let b ← target.exit (← source.centre)
  pure { points := [a, b], middle := (a, b), beforeTip := a, tip := b }

/-- The way from a box to itself, around its right side. -/
def loop (f : Frame) (scale : Int) : Route :=
  let right := f.x + f.width
  let far := right + 20 * scale
  let top := f.y + f.height / 3
  let bottom := f.y + 2 * f.height / 3
  { points := [⟨right, top⟩, ⟨far, top⟩, ⟨far, bottom⟩, ⟨right, bottom⟩]
    middle := (⟨far, top⟩, ⟨far, bottom⟩)
    beforeTip := ⟨far, bottom⟩
    tip := ⟨right, bottom⟩ }

/-- The place of the label: halfway along the middle stretch. -/
def labelPlace (r : Route) : Point :=
  ⟨(r.middle.1.x + r.middle.2.x) / 2, (r.middle.1.y + r.middle.2.y) / 2⟩

end Route

/-- The ratio of a circle's circumference to its diameter. -/
def pi : Float := 3.141592653589793

/-- The corners of the head of an arrow with its tip at `tip`, coming from
`before`: the sides fold back by four fifths of a half turn. -/
def arrowhead (before tip : Point) (size : Int) : Except Fault (List FinePoint) := do
  let down ← Fine.ofInt (tip.y - before.y)
  let across ← Fine.ofInt (tip.x - before.x)
  let angle := Float.atan2 down across
  let one := angle + pi * 0.8
  let other := angle - pi * 0.8
  let length ← Fine.ofInt size
  let x ← Fine.ofInt tip.x
  let y ← Fine.ofInt tip.y
  pure
    [ ⟨x, y⟩,
      ⟨x + length * Float.cos one, y + length * Float.sin one⟩,
      ⟨x + length * Float.cos other, y + length * Float.sin other⟩ ]

end Storyboard
