import Storyboard.Canvas.Box
import Storyboard.Proofs.Trimming
import Storyboard.Proofs.Wrapping
import Storyboard.Screen.Card

/-!
# The cards of screens

A card can be written for every screen whose section breaks are not counted
from the end, since each look at a component is then in range. Its lines are
empty or have something to show; so when a box is measured from it, the only
lines kept unwrapped are rules and empty ones, and no row of text has a blank
other than spaces.

## Main results

* `Screen.card_eq` — what such a screen has on its card.
* `Screen.cardLine_of_mem_card` — what the lines of a card are.
* `Screen.exists_card` — such a screen has a card, and its lines are empty or
  not blank.
* `Box.eq_space_of_mem_rows` — the only blanks in the rows of a card's box are
  spaces.
-/

namespace Storyboard

namespace Screen

/-! ## Section breaks -/

theorem openedBy_ok (s : Screen) (i : Int) :
    ∀ sections : List Int, (∀ k ∈ sections, 0 ≤ k) → ∃ b, s.openedBy i sections = .ok b := by
  intro sections
  induction sections with
  | nil =>
      intro _
      exact ⟨false, rfl⟩
  | cons start rest ih =>
      intro hsections
      have hstart : 0 ≤ start := hsections start (by simp)
      have hrest := ih fun k hk => hsections k (by simp [hk])
      unfold openedBy
      split
      · exact hrest
      · rw [firstActionFrom, if_neg (by omega)]
        dsimp only
        split
        · exact ⟨true, rfl⟩
        · exact hrest

/-- Whether a separator stands before a component is settled for every
component of a screen whose section breaks are not below zero. -/
theorem breaksBefore_ok {s : Screen} (h : ∀ k ∈ s.sections, 0 ≤ k) {i : Nat}
    (hi : i < s.components.length) : ∃ b, s.breaksBefore i = .ok b := by
  rw [breaksBefore, Sequence.at?_natCast, List.getElem?_eq_getElem hi]
  dsimp only
  split
  · exact openedBy_ok s i s.sections h
  · exact ⟨false, rfl⟩

/-! ## The lines of a card -/

/-- Whether a line of a card is empty or has something to show. -/
def Legible (line : String) : Prop := line = "" ∨ Text.strip line ≠ ""

theorem legible_of_mem {line : String} {c : Char} (hc : c ∈ line.toList)
    (hletter : Text.isBlank c = false) : Legible line := by
  apply Or.inr
  intro hnil
  have htrim : Text.trim line.toList = [] := by
    rw [← Text.toList_strip, hnil]
    rfl
  rw [Text.trim_eq_nil_iff.1 htrim c hc] at hletter
  cases hletter

private theorem legible_componentLine (c : Component) : Legible (componentLine c) := by
  have hword : c.kind.word.toList.any (fun ch => !Text.isBlank ch) = true := by
    cases c.kind <;> decide
  obtain ⟨ch, hch, hletter⟩ := List.any_eq_true.1 hword
  have hmem : ch ∈ (componentLine c).toList := by
    simp [componentLine, hch]
  exact legible_of_mem hmem (by simpa using hletter)

private theorem legible_requirementLine (e : Category × String) : Legible (requirementLine e) := by
  have hcode : Text.isBlank e.1.code = false := by
    cases e.1 <;> decide
  exact legible_of_mem (by simp [requirementLine]) hcode

/-- The lines that the card of a screen can have. -/
inductive CardLine (s : Screen) : String → Prop
  | name : CardLine s ("[" ++ s.name ++ "]")
  | gap : CardLine s ""
  | requirement (e : Category × String) : CardLine s (requirementLine e)
  | rule : CardLine s separator
  | component (c : Component) : CardLine s (componentLine c)

theorem CardLine.legible {s : Screen} {line : String} (h : s.CardLine line) : Legible line := by
  cases h with
  | name => exact legible_of_mem (show '[' ∈ ("[" ++ s.name ++ "]").toList by simp) (by decide)
  | gap => exact Or.inl rfl
  | requirement e => exact legible_requirementLine e
  | rule => exact legible_of_mem (show '-' ∈ separator.toList by decide) (by decide)
  | component c => exact legible_componentLine c

theorem mem_requirementLines {s : Screen} {l : String} (hl : l ∈ s.requirementLines) :
    l = "" ∨ ∃ e, l = requirementLine e := by
  unfold requirementLines at hl
  split at hl
  · cases hl
  · rcases List.mem_append.1 hl with hl | hl
    · obtain ⟨e, -, rfl⟩ := List.mem_map.1 hl
      exact Or.inr ⟨e, rfl⟩
    · exact Or.inl (List.mem_singleton.1 hl)

/-- The lines of components are those of the first and those of the others. -/
theorem componentLines_cons_eq_ok_iff {s : Screen} {i : Nat} {c : Component}
    {rest : List Component} {ls : List String} :
    s.componentLines i (c :: rest) = .ok ls ↔
      ∃ breaks below, s.breaksBefore i = .ok breaks ∧ s.componentLines (i + 1) rest = .ok below ∧
        ls = (if breaks then [separator] else []) ++ componentLine c :: below := by
  rw [componentLines]
  cases s.breaksBefore i with
  | error fault => simp
  | ok breaks =>
      cases s.componentLines (i + 1) rest with
      | error fault => simp [Except.map]
      | ok below => simp [Except.map, eq_comm]

/-- Whether a separator stands before the component at a position. -/
def opens (s : Screen) (i : Nat) : Bool := s.breaksBefore i = .ok true

/-- The lines of a component with its position: its own, after a separator if one
stands before it. -/
def part (s : Screen) (e : Component × Nat) : List String :=
  if s.opens e.2 then [separator, componentLine e.1] else [componentLine e.1]

/-- The lines above those of the components. -/
def heading (s : Screen) : List String :=
  ("[" ++ s.name ++ "]") :: "" :: s.requirementLines

/-- The lines of the components. -/
def body (s : Screen) : List String := s.components.zipIdx.flatMap s.part

private theorem componentLines_eq {s : Screen} (h : ∀ k ∈ s.sections, 0 ≤ k) :
    ∀ (cs : List Component) (i : Nat), i + cs.length = s.components.length →
      s.componentLines i cs = .ok ((cs.zipIdx i).flatMap s.part) := by
  intro cs
  induction cs with
  | nil =>
      intro i _
      rfl
  | cons c rest ih =>
      intro i hi
      rw [List.length_cons] at hi
      obtain ⟨breaks, hbreaks⟩ := breaksBefore_ok h (show i < s.components.length by omega)
      refine componentLines_cons_eq_ok_iff.2 ⟨breaks, _, hbreaks, ih (i + 1) (by omega), ?_⟩
      rw [List.zipIdx_cons, List.flatMap_cons, part, opens]
      cases breaks with
      | true => simp [hbreaks]
      | false => simp [hbreaks]

private theorem cardLine_of_mem_componentLines {s : Screen} :
    ∀ (cs : List Component) (i : Nat) (ls : List String), s.componentLines i cs = .ok ls →
      ∀ l ∈ ls, s.CardLine l := by
  intro cs
  induction cs with
  | nil =>
      intro i ls hls l hl
      cases hls
      cases hl
  | cons c rest ih =>
      intro i ls hls l hl
      obtain ⟨breaks, below, -, hbelow, rfl⟩ := componentLines_cons_eq_ok_iff.1 hls
      rcases List.mem_append.1 hl with hl | hl
      · split at hl
        · rw [List.mem_singleton.1 hl]
          exact .rule
        · cases hl
      · rcases List.mem_cons.1 hl with rfl | hl
        · exact .component c
        · exact ih (i + 1) below hbelow l hl

/-- A card has the name, the requirements and the components, and no empty line
at its end. -/
theorem card_eq_ok_iff {s : Screen} {card : List String} :
    s.card = .ok card ↔ ∃ body, s.componentLines 0 s.components = .ok body ∧
      card = Sequence.dropEndWhile (· = "") (s.heading ++ body) := by
  rw [Screen.card]
  cases s.componentLines 0 s.components with
  | error fault => simp [Except.map]
  | ok body => simp [Except.map, heading, eq_comm]

/-- What is on the card of a screen whose section breaks are not below zero. -/
theorem card_eq {s : Screen} (h : ∀ k ∈ s.sections, 0 ≤ k) :
    s.card = .ok (Sequence.dropEndWhile (· = "") (s.heading ++ s.body)) :=
  card_eq_ok_iff.2 ⟨s.body, componentLines_eq h s.components 0 (Nat.zero_add _), rfl⟩

/-- What the lines of a card are. -/
theorem cardLine_of_mem_card {s : Screen} {card : List String} (h : s.card = .ok card) :
    ∀ l ∈ card, s.CardLine l := by
  obtain ⟨body, hbody, rfl⟩ := card_eq_ok_iff.1 h
  intro l hl
  have hmem := (List.rdropWhile_prefix (fun l : String => decide (l = "")) _).subset hl
  rcases List.mem_cons.1 hmem with rfl | hmem
  · exact .name
  · rcases List.mem_cons.1 hmem with rfl | hmem
    · exact .gap
    · rcases List.mem_append.1 hmem with hmem | hmem
      · rcases mem_requirementLines hmem with rfl | ⟨e, rfl⟩
        · exact .gap
        · exact .requirement e
      · exact cardLine_of_mem_componentLines _ _ _ hbody l hmem

/-- A screen whose section breaks are not below zero has a card, and its lines
are empty or have something to show. -/
theorem exists_card {s : Screen} (h : ∀ k ∈ s.sections, 0 ≤ k) :
    ∃ card, s.card = .ok card ∧ ∀ l ∈ card, Legible l := by
  exact ⟨_, card_eq h, fun l hl => (cardLine_of_mem_card (card_eq h) l hl).legible⟩

end Screen

/-! ## The rows of a card's box -/

namespace Box

/-- A row of text of a card's box is empty or a wrapped line. -/
theorem text_of_mem_rows {style : Style} {content : List String}
    (h : ∀ l ∈ content, Screen.Legible l) {r : Row} (hr : r ∈ (measure style content).rows)
    (hrule : r.isRule = false) :
    r.text = "" ∨ ∃ l ∈ content, r.text ∈ Text.wrap l style.textWidth := by
  have hmem : r ∈ style.rows content := hr
  unfold Style.rows at hmem
  split at hmem
  · rw [List.mem_singleton.1 hmem]
    exact Or.inl rfl
  · obtain ⟨l, hl, hmem⟩ := List.mem_flatMap.1 hmem
    unfold Style.rowsOf at hmem
    split at hmem
    · rw [List.mem_singleton.1 hmem] at hrule
      cases hrule
    · split at hmem
      · rename_i hstrip
        rw [List.mem_singleton.1 hmem]
        exact Or.inl ((h l hl).resolve_right fun hne => hne hstrip)
      · obtain ⟨line, hline, rfl⟩ := List.mem_map.1 hmem
        exact Or.inr ⟨l, hl, hline⟩

/-- The only blanks in the text of a card's box are spaces. -/
theorem eq_space_of_mem_rows {style : Style} {content : List String}
    (h : ∀ l ∈ content, Screen.Legible l) {r : Row} (hr : r ∈ (measure style content).rows)
    (hrule : r.isRule = false) {c : Char} (hc : c ∈ r.text.toList)
    (hblank : Text.isBlank c = true) : c = ' ' := by
  rcases text_of_mem_rows h hr hrule with hnil | ⟨l, -, hline⟩
  · rw [hnil] at hc
    cases hc
  · exact Text.eq_space_of_mem_wrap hline hc hblank

end Box

end Storyboard
