import Storyboard.Flow

/-!
# Painters and rendering

A painter turns a flow into a diagram by four acts: it starts on a flow,
places a screen and answers a handle for it, connects two handles, and
finishes with the diagram. A painter is any state machine with these acts;
what its handles are is its own affair.

Rendering drives a painter in two passes: every screen is placed before the
first connector is drawn. A connector leads to the first screen that has the
name of its target; a transition whose target is never placed is skipped. An
act may fail, and then nothing follows it. What the painter's state has become
is kept in either case, and so is the count of what was done.

## Main definitions

* `Act`, `Painter` — an act with state and failure, and the four acts.
* `Tally`, `Summary` — what a rendering has done.
* `Painter.render` — renders a flow.
* `Connector` — a connector as painters that number their cards keep it.
-/

namespace Storyboard

/-- An act on a state: it may fail, and the state keeps what was changed
before. -/
abbrev Act (σ α : Type) : Type := ExceptT Failure (StateM σ) α

/-- The four acts of a painter with state `σ`, handles `η` and diagrams
`α`. -/
structure Painter (σ η α : Type) where
  start : Flow → Act σ Unit
  place : Screen → Act σ η
  connect : (source target : η) → (label : String) → Act σ Unit
  finish : Act σ α

/-- What a rendering has done so far. Skipped transitions come with the name
of the screen that holds them. -/
structure Tally where
  placed : Nat := 0
  connected : Nat := 0
  skipped : List (String × Transition) := []
deriving DecidableEq, Repr

/-- What a rendering has done in all, and the diagram. -/
structure Summary (α : Type) extends Tally where
  artifact : α

/-- The end of a rendering: the summary or the failure, and what was done and
the painter's state in either case. -/
structure Rendering (σ α : Type) where
  outcome : Except RenderFault (Summary α)
  tally : Tally
  state : σ

namespace Painter

variable {σ η α : Type}

/-- A painter's act beside a tally that it leaves alone. -/
def tallied {β : Type} (act : Act σ β) : Act (σ × Tally) β :=
  ExceptT.mk fun s =>
    let r := act.run s.1
    (r.1, (r.2, s.2))

/-- Changes the tally. -/
def note (change : Tally → Tally) : Act (σ × Tally) Unit :=
  ExceptT.mk fun s => (.ok (), (s.1, change s.2))

/-- Places screens in order. -/
def placeAll (p : Painter σ η α) : List Screen → Act (σ × Tally) (List η)
  | [] => pure []
  | s :: rest => do
    let handle ← tallied (p.place s)
    note fun t => { t with placed := t.placed + 1 }
    let handles ← p.placeAll rest
    pure (handle :: handles)

/-- Draws the connectors of the screen called `name`, whose handle is
`source`. `handles` holds the handle of every screen placed, by name. -/
def connectScreen (p : Painter σ η α) (handles : List (String × η)) (name : String)
    (source : η) : List Transition → Act (σ × Tally) Unit
  | [] => pure ()
  | transition :: rest => do
    match handles.lookup transition.target with
    | none => note fun t => { t with skipped := t.skipped ++ [(name, transition)] }
    | some target =>
      tallied (p.connect source target transition.label)
      note fun t => { t with connected := t.connected + 1 }
    p.connectScreen handles name source rest

/-- Draws the connectors of screens in order, each with its handle. -/
def connectAll (p : Painter σ η α) (handles : List (String × η)) :
    List (Screen × η) → Act (σ × Tally) Unit
  | [] => pure ()
  | (s, source) :: rest => do
    p.connectScreen handles s.name source s.transitions
    p.connectAll handles rest

/-- Both passes over a flow, between start and finish. -/
def draw (p : Painter σ η α) (f : Flow) : Act (σ × Tally) α := do
  tallied (p.start f)
  let handles ← p.placeAll f.screens
  p.connectAll (f.names.zip handles) (f.screens.zip handles)
  tallied p.finish

/-- Renders a flow from a state of the painter. Whatever fails, a failed
rendering is what is seen of it. -/
def render (p : Painter σ η α) (f : Flow) (state : σ) : Rendering σ α :=
  match (p.draw f).run (state, {}) with
  | (.ok artifact, s, tally) => ⟨.ok { tally with artifact := artifact }, tally, s⟩
  | (.error failure, s, tally) => ⟨.error failure.toRenderFault, tally, s⟩

end Painter

/-! ## Numbered cards -/

/-- A connector between two cards, which are told by their numbers in order of
placing. -/
structure Connector where
  source : Int
  target : Int
  label : String
deriving DecidableEq, Repr

end Storyboard
