import Storyboard.Picture.Fine

/-!
# Fonts

The font of a picture is the one asked for, which must then load, or the first
system font that is there and loads, or else a built-in font. A built-in font
may come in one size only. Some sizes and names may not even be asked for.

## Main definitions

* `FontShelf` — which fonts are there, and which of them do not load.
* `FontShelf.bare` — the shelf with nothing but the built-in font.
* `FontShelf.load` — the font to use.
* `Bounds`, `Font.blockBounds` — the room that a text takes.
-/

namespace Storyboard

/-- A font at a size; the built-in font has no path. -/
structure Font where
  path : Option String
  size : Int
deriving DecidableEq, Repr

/-- The fonts at hand. -/
structure FontShelf where
  /-- Whether a font file is there. -/
  present : String → Bool
  /-- Why a font does not load, if it does not. -/
  flaw? : String → Option String
  /-- Whether the built-in font comes in any size. -/
  sizedBuiltIn : Bool := true
  /-- Why a font, or the usual one, cannot be asked for at a size, if it
  cannot. -/
  refusal? : Int → Option String → Option Fault := fun _ _ => none

namespace FontShelf

/-- The system fonts, tried in this order when no font is asked for. -/
def systemFonts : List String :=
  [ "/usr/share/fonts/truetype/dejavu/DejaVuSansMono.ttf",
    "/usr/share/fonts/truetype/liberation/LiberationMono-Regular.ttf",
    "/usr/share/fonts/truetype/freefont/FreeMono.ttf",
    "/System/Library/Fonts/Menlo.ttc",
    "/System/Library/Fonts/Monaco.ttf",
    "C:/Windows/Fonts/consola.ttf" ]

/-- The greatest size that a scalable font comes in. -/
def largestSize : Int := 0xFFFF

/-- Why a scalable font cannot be asked for: sizes are above zero, names have
no null character, and sizes are measured in floating point. The built-in font
is there to be scaled at once, so that its size must be one that it comes in. -/
def scalableRefusal? (size : Int) (asked : Option String) : Option Fault :=
  if size ≤ 0 then some (.fontSize size)
  else
    match asked, Fine.ofInt size with
    | some name, measure =>
      if '\x00' ∈ name.toList then some .nullInPath
      else
        match measure with
        | .error fault => some fault
        | .ok _ => none
    | none, .error fault => some fault
    | none, .ok _ =>
      if largestSize < size then some (.system "invalid pixel size") else none

/-- The shelf with nothing but the built-in font. -/
def bare : FontShelf where
  present _ := false
  flaw? _ := some "cannot open resource"
  refusal? := scalableRefusal?

/-- The built-in font; one that comes in one size only has size ten. -/
def builtIn (shelf : FontShelf) (size : Int) : Font :=
  ⟨none, if shelf.sizedBuiltIn then size else 10⟩

/-- The first system font that is there and loads, or the built-in font. -/
def usual (shelf : FontShelf) (size : Int) : Font :=
  match systemFonts.find? fun path => shelf.present path && (shelf.flaw? path).isNone with
  | some path => ⟨some path, size⟩
  | none => shelf.builtIn size

/-- Loads a font at a size: the one with a name, or the usual one. -/
def loadNamed (shelf : FontShelf) (size : Int) (asked : Option String) : Except RenderFault Font :=
  match shelf.refusal? size asked, asked with
  | some fault, _ => .error (.failed fault.message (some fault))
  | none, none => .ok (shelf.usual size)
  | none, some name =>
    match shelf.flaw? name with
    | some reason => .error (.font name reason (some (.system reason)))
    | none => .ok ⟨some name, size⟩

/-- Loads the font asked for at a size, or the usual font if none is asked
for; an empty name asks for none. -/
def load (shelf : FontShelf) (size : Int) (asked : Option String) : Except RenderFault Font :=
  shelf.loadNamed size (asked.filter (· ≠ ""))

end FontShelf

/-- The room that a text takes when it is drawn at the origin. -/
structure Bounds where
  left : Int
  top : Int
  right : Int
  bottom : Int
deriving DecidableEq, Repr

/-- The width that a text takes. -/
def Bounds.width (b : Bounds) : Int := b.right - b.left

/-- The height that a text takes. -/
def Bounds.height (b : Bounds) : Int := b.bottom - b.top

namespace Font

/-- The width of a character in block metrics: a full em for wide scripts,
six tenths of it otherwise. -/
def blockAdvance (f : Font) (c : Char) : Int :=
  if 0x2E80 ≤ c.toNat then f.size else f.size * 6 / 10

/-- Whether a letter reaches below the line. -/
def descends (c : Char) : Bool :=
  c ∈ ['g', 'j', 'p', 'q', 'y']

/-- The room of a text in block metrics, which depend on the size of a font
alone. -/
def blockBounds (f : Font) (text : String) : Bounds :=
  let left := f.size / 8
  let top := f.size / 4
  { left := left
    top := top
    right := left + (text.toList.map f.blockAdvance).foldl (· + ·) 0
    bottom := top + f.size + if text.toList.any descends then f.size / 4 else 0 }

end Font

end Storyboard
