import Storyboard.Flow

/-!
# Screens as they are given

Anyone may build a screen. Its requirements then stand in a register, in the
order in which their categories were first given; a category that is given
again keeps its place and takes the new description.

Given screens are compared without regard to that order. The key that a given
screen is filed under has the requirements sorted by their codes.

## Main definitions

* `Register`, `Register.put`, `Register.ofList` — requirements as they are given.
* `Register.same`, `Register.key` — how registers are compared and filed.
* `Screen.Given`, `Flow.Given` — given screens and flows of them, with `same` and
  `key`, and the screens and flows they come to.
-/

namespace Storyboard

/-! ## Registers -/

/-- Descriptions by category, in the order in which the categories were first
given. -/
structure Register where
  entries : List (Category × String) := []
  nodup : (entries.map Prod.fst).Nodup := by exact List.nodup_nil

namespace Register

/-- The description of a category. -/
def get? (r : Register) (category : Category) : Option String :=
  r.entries.lookup category

/-- Gives the description of a category. -/
def put (r : Register) (category : Category) (text : String) : Register where
  entries := Sequence.put category text r.entries
  nodup := Sequence.nodup_keys_amend r.nodup

/-- The register of descriptions that are given one after the other. -/
def ofList (given : List (Category × String)) : Register :=
  given.foldl (fun r e => r.put e.1 e.2) {}

/-- Whether two registers are the same: they are of one length, and each entry
of the first can be looked up in the second. -/
def same (r s : Register) : Bool :=
  r.entries.length == s.entries.length && r.entries.all fun e => s.get? e.1 == some e.2

/-- The order of entries in a key: by code, and then by description. -/
def entryLe (a b : Char × String) : Bool :=
  decide (a.1 < b.1) || (a.1 == b.1 && decide (a.2 ≤ b.2))

/-- What a register is filed under: the codes with their descriptions, sorted. -/
def key (r : Register) : List (Char × String) :=
  (r.entries.map fun e => (e.1.code, e.2)).mergeSort entryLe

/-- The requirements of a register. -/
def toRequirements (r : Register) : Requirements :=
  Requirements.ofList r.entries

end Register

/-! ## Screens -/

/-- A screen as it is given. -/
structure Screen.Given where
  name : String
  components : List Component := []
  requirements : Register := {}
  transitions : List Transition := []
  sections : List Int := []

/-- What a given screen is filed under. -/
structure Screen.Key where
  name : String
  components : List Component
  requirements : List (Char × String)
  transitions : List Transition
  sections : List Int
deriving DecidableEq, Repr

namespace Screen.Given

/-- Whether two given screens are the same. -/
def same (a b : Given) : Bool :=
  a.name == b.name && a.components == b.components && a.requirements.same b.requirements &&
    a.transitions == b.transitions && a.sections == b.sections

/-- What a given screen is filed under. -/
def key (a : Given) : Key where
  name := a.name
  components := a.components
  requirements := a.requirements.key
  transitions := a.transitions
  sections := a.sections

/-- The screen that a given screen comes to. -/
def toScreen (a : Given) : Screen where
  name := a.name
  components := a.components
  requirements := a.requirements.toRequirements
  transitions := a.transitions
  sections := a.sections

/-- Whether two sequences of given screens are the same, screen by screen. -/
def sameAll : List Given → List Given → Bool
  | [], [] => true
  | a :: as, b :: bs => a.same b && sameAll as bs
  | _, _ => false

end Screen.Given

/-! ## Flows -/

/-- A flow as it is given. -/
structure Flow.Given where
  screens : List Screen.Given := []

namespace Flow.Given

/-- Whether two given flows are the same. -/
def same (f g : Given) : Bool :=
  Screen.Given.sameAll f.screens g.screens

/-- What a given flow is filed under. -/
def key (f : Given) : List Screen.Key :=
  f.screens.map Screen.Given.key

/-- The flow that a given flow comes to. -/
def toFlow (f : Given) : Flow where
  screens := f.screens.map Screen.Given.toScreen

end Flow.Given

end Storyboard
