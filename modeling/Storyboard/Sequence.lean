/-!
# Positions, slices and entries in a list

Lists are addressed from both ends: position `0` is the first element and
position `-1` the last. A slice picks the elements at evenly spaced positions
between two bounds, forwards or backwards, and bounds outside the list are
moved to its ends.

## Main definitions

* `at?` — the element at a position counted from either end.
* `isPosition` — which integers can be positions at all.
* `Slice`, `slice?` — evenly spaced elements; a step of zero picks none and is
  refused.
* `dropEndWhile` — a list without what ends it.
* `greatest` — the greatest of some numbers.
* `distinct` — a list without repetitions, first occurrences kept.
* `amend`, `put` — entries under keys, in the order in which the keys came.
-/

namespace Storyboard.Sequence

/-! ## Positions -/

/-- The element at position `i`, counted from the end when `i` is negative. -/
def at? {α : Type} (xs : List α) (i : Int) : Option α :=
  if 0 ≤ i then xs[i.toNat]?
  else if 0 ≤ i + xs.length then xs[(i + xs.length).toNat]?
  else none

/-- A position that does not count from the end is an ordinary index. -/
theorem at?_natCast {α : Type} (xs : List α) (i : Nat) : at? xs (i : Int) = xs[i]? := by
  simp [at?]

/-- There is an element at `i` exactly if `i` is at least minus the length and
below the length. -/
theorem isSome_at? {α : Type} (xs : List α) (i : Int) :
    (at? xs i).isSome = true ↔ -(xs.length : Int) ≤ i ∧ i < xs.length := by
  unfold at?
  split
  · simp; omega
  · split
    · simp; omega
    · simp; omega

/-- The first integer above all positions. -/
def positionLimit : Int := 0x8000000000000000

/-- Whether an integer can be a position of some list: positions are held in
sixty-four bits with a sign. -/
def isPosition (i : Int) : Bool := -positionLimit ≤ i && i < positionLimit

/-! ## Slices -/

/-- Bounds and step of a slice; a missing bound is the end of the list that
the step comes from or goes to, and a missing step is one. -/
structure Slice where
  start : Option Int := none
  stop : Option Int := none
  step : Option Int := none
deriving DecidableEq, Repr

/-- A bound counted from the end if negative, then moved into the range from
`low` to `high`. -/
def clampBound (length low high i : Int) : Int :=
  max low (min high (if i < 0 then i + length else i))

/-- As many positions as `count` says, from `start` on and `step` apart. -/
def spaced (start step count : Int) : List Int :=
  (List.range count.toNat).map fun (k : Nat) => start + k * step

/-- The positions a slice picks from a list of `length` elements, or nothing
if its step is zero. -/
def Slice.positions? (s : Slice) (length : Nat) : Option (List Int) :=
  let n : Int := length
  let step := s.step.getD 1
  if step = 0 then none
  else if 0 < step then
    let start := (s.start.map (clampBound n 0 n)).getD 0
    let stop := (s.stop.map (clampBound n 0 n)).getD n
    some (if start < stop then spaced start step ((stop - start - 1) / step + 1) else [])
  else
    let start := (s.start.map (clampBound n (-1) (n - 1))).getD (n - 1)
    let stop := (s.stop.map (clampBound n (-1) (n - 1))).getD (-1)
    some (if stop < start then spaced start step ((start - stop - 1) / (-step) + 1) else [])

/-- The elements that a slice picks. -/
def slice? {α : Type} (xs : List α) (s : Slice) : Option (List α) :=
  (s.positions? xs.length).map fun ps => ps.filterMap (at? xs)

/-! ## Ends and extremes -/

/-- The list without the longest run of elements with `p` at its end. -/
def dropEndWhile {α : Type} (p : α → Bool) (xs : List α) : List α :=
  (xs.reverse.dropWhile p).reverse

/-- The greatest of some numbers; zero if there are none. -/
def greatest : List Int → Int
  | [] => 0
  | n :: ns => ns.foldl max n

/-! ## Repetitions -/

/-- The list without repetitions; of equal elements the first is kept. -/
def distinct {α : Type} [DecidableEq α] : List α → List α
  | [] => []
  | x :: xs => x :: (distinct xs).filter (· ≠ x)

@[simp] theorem mem_distinct {α : Type} [DecidableEq α] {x : α} {xs : List α} :
    x ∈ distinct xs ↔ x ∈ xs := by
  induction xs with
  | nil => simp [distinct]
  | cons y ys ih => by_cases h : x = y <;> simp [distinct, h, ih]

theorem nodup_distinct {α : Type} [DecidableEq α] (xs : List α) : (distinct xs).Nodup := by
  induction xs with
  | nil => simp [distinct]
  | cons y ys ih =>
    rw [distinct, List.nodup_cons]
    exact ⟨by simp, ih.filter _⟩

/-! ## Entries in order of insertion -/

section Entries

variable {κ α : Type} [DecidableEq κ]

/-- Changes what is kept under a key. What is kept under a new key comes
last. -/
def amend (change : Option α → α) (k : κ) : List (κ × α) → List (κ × α)
  | [] => [(k, change none)]
  | e :: es => if e.1 = k then (k, change (some e.2)) :: es else e :: amend change k es

/-- Keeps `a` under a key, in place of what was kept there. -/
def put (k : κ) (a : α) : List (κ × α) → List (κ × α) := amend (fun _ => a) k

theorem mem_keys_amend {change : Option α → α} {j k : κ} {es : List (κ × α)} :
    j ∈ (amend change k es).map Prod.fst ↔ j = k ∨ j ∈ es.map Prod.fst := by
  induction es with
  | nil => simp [amend]
  | cons e es ih =>
    unfold amend
    split
    · rename_i h
      simp [h]
    · simp only [List.map_cons, List.mem_cons, ih]
      exact or_left_comm

/-- A key never stands twice. -/
theorem nodup_keys_amend {change : Option α → α} {k : κ} {es : List (κ × α)}
    (h : (es.map Prod.fst).Nodup) : ((amend change k es).map Prod.fst).Nodup := by
  induction es with
  | nil => simp [amend]
  | cons e es ih =>
    have hkeys := List.nodup_cons.1 h
    unfold amend
    split
    · rename_i hk
      rw [← hk]
      exact h
    · rename_i hk
      apply List.nodup_cons.2
      constructor
      · intro hmem
        cases mem_keys_amend.1 hmem with
        | inl hsame => exact hk hsame
        | inr hrest => exact hkeys.1 hrest
      · exact ih hkeys.2

end Entries

end Storyboard.Sequence
