import Storyboard.Text.Blank

/-!
# Paths

A path in its normal form: what it starts from, and its parts. Doubled and
trailing slashes and parts that stay in place are dropped; a part that goes up
is kept, since what it goes up from may be elsewhere.

## Main definitions

* `Path.ofString`, `Path.toString` — reading and writing a path.
* `Path.suffix` — the suffix of the last part.
-/

namespace Storyboard

/-- A path: the slashes that it starts from, and its parts. -/
structure Path where
  root : String := ""
  parts : List String := []
deriving DecidableEq, Repr

namespace Path

/-- The pieces of a text between slashes. -/
def splitSlashes : List Char → List (List Char)
  | [] => [[]]
  | c :: rest =>
    if c = '/' then [] :: splitSlashes rest
    else
      match splitSlashes rest with
      | [] => [[c]]
      | p :: ps => (c :: p) :: ps

/-- What a path starts from: nothing, one slash, or exactly two; more than
two count as one. -/
def rootOf : List Char → String
  | '/' :: '/' :: '/' :: _ => "/"
  | '/' :: '/' :: _ => "//"
  | '/' :: _ => "/"
  | _ => ""

/-- The normal form of a path. -/
def ofString (s : String) : Path where
  root := rootOf s.toList
  parts := ((splitSlashes s.toList).map String.ofList).filter fun p => p ≠ "" ∧ p ≠ "."

/-- A path as text; the empty path is the place itself. -/
def toString (p : Path) : String :=
  if p.root = "" ∧ p.parts = [] then "." else p.root ++ String.intercalate "/" p.parts

/-- The last part of a path. -/
def name (p : Path) : String :=
  p.parts.getLast?.getD ""

/-- The suffix of the last part: from its last dot on, unless that dot is its
first or its last character. -/
def suffix (p : Path) : String :=
  match Text.cutLast? ['.'] p.name.toList with
  | some (_ :: _, d :: ds) => String.ofList ('.' :: d :: ds)
  | _ => ""

/-- Whether the suffix of a path is `s`, letter case apart. -/
def hasSuffix (p : Path) (s : String) : Bool :=
  p.suffix.toList.map Char.toLower == s.toList

end Path

end Storyboard
