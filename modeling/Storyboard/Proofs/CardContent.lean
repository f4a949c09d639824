import Storyboard.Proofs.SectionRules
import Storyboard.Proofs.WellFormed

/-!
# What a card tells of its screen

A card is made for readers, but nothing is lost on it: the name of the screen, its
requirements, its components and the places of the separators can all be read off.
Names and descriptions may hold anything, so it has to be shown that none of them
can make a line look like one of another kind. The name stands alone on the first
line. Of the other lines a requirement has a colon as its second character, and
a component or a separator has not; empty lines have no characters at all, so that
it makes no difference how many of them are dropped at the end. Among the lines of
components only a separator is made of dashes, and the word before the colon tells
the kind.

What a card does not tell are the transitions, and which of several section breaks
a separator comes from.

## Main results

* `Screen.filter_lines_requirement`, `Screen.filter_lines_body` — the lines of the
  requirements and those of the components, picked out from the others.
* `Screen.flatMap_block_inj` — components and separators from their lines.
* `Screen.card_tells_content` — two screens have the same card exactly if they have
  the same content.
-/

namespace Storyboard

/-- Requirements are determined by their list. -/
theorem Requirements.toList_injective : Function.Injective Requirements.toList := by
  intro r s h
  apply ext_get?
  intro c
  apply Option.ext
  intro text
  rw [← mem_toList, ← mem_toList, h]

namespace Screen

/-! ## Lines told apart -/

/-- Whether a line below the name is that of a requirement: its second character
is a colon. -/
def tellsRequirement (l : String) : Bool := l.toList[1]? = some ':'

/-- Whether a line below the name is that of a component, or a separator. -/
def tellsComponent (l : String) : Bool := l ≠ "" && !tellsRequirement l

private theorem tellsRequirement_of_empty (l : String) (h : decide (l = "") = true) :
    tellsRequirement l = false := by
  rw [of_decide_eq_true h]
  decide

private theorem tellsComponent_of_empty (l : String) (h : decide (l = "") = true) :
    tellsComponent l = false := by
  rw [of_decide_eq_true h]
  decide

private theorem tellsRequirement_requirementLine (e : Category × String) :
    tellsRequirement (requirementLine e) = true := by
  simp [tellsRequirement, requirementLine]

private theorem tellsComponent_requirementLine (e : Category × String) :
    tellsComponent (requirementLine e) = false := by
  simp [tellsComponent, tellsRequirement_requirementLine]

/-- The second character of a component's line is a letter of the word for its
kind. -/
theorem tellsRequirement_componentLine (c : Component) :
    tellsRequirement (componentLine c) = false := by
  obtain ⟨kind, name⟩ := c
  cases kind <;> simp [tellsRequirement, componentLine, Kind.word]

private theorem tellsComponent_componentLine (c : Component) :
    tellsComponent (componentLine c) = true := by
  simp [tellsComponent, tellsRequirement_componentLine, componentLine_ne_empty]

private theorem requirementLine_injective : Function.Injective requirementLine := by
  rintro ⟨c, text⟩ ⟨d, other⟩ heq
  have hchars : c.code :: ':' :: ' ' :: text.toList = d.code :: ':' :: ' ' :: other.toList := by
    simpa [requirementLine] using congrArg String.toList heq
  injection hchars with hcode hrest
  injection hrest with _ hrest
  injection hrest with _ htext
  have hcategory : c = d := by
    revert hcode
    cases c <;> cases d <;> decide
  rw [hcategory, String.toList_inj.1 htext]

private theorem componentLine_injective : Function.Injective componentLine := by
  rintro ⟨kind, name⟩ ⟨kind', name'⟩ heq
  have hchars : kind.word.toList ++ ':' :: ' ' :: name.toList =
      kind'.word.toList ++ ':' :: ' ' :: name'.toList := by
    simpa [componentLine] using congrArg String.toList heq
  -- no two kinds have words that begin with the same letter
  have hkind : kind = kind' := by
    have hfirst := congrArg List.head? hchars
    revert hfirst
    cases kind <;> cases kind' <;> simp [Kind.word]
  subst hkind
  have hname := List.append_cancel_left hchars
  injection hname with _ hname
  injection hname with _ hname
  rw [String.toList_inj.1 hname]

/-! ## Components from their lines -/

/-- The lines of a component, after a separator if one stands before it. -/
def block (e : Bool × Component) : List String :=
  if e.1 then [separator, componentLine e.2] else [componentLine e.2]

/-- The components of a screen, each with whether a separator stands before it. -/
def parted (s : Screen) : List (Bool × Component) :=
  s.components.zipIdx.map fun e => (s.opens e.2, e.1)

theorem body_eq (s : Screen) : s.body = s.parted.flatMap block := by
  rw [body, parted, List.flatMap_map]
  rfl

/-- Lines are those of one list of components with separators only. A component
begins with a separator or with its own line, and its own line ends it. -/
theorem flatMap_block_inj :
    ∀ {es fs : List (Bool × Component)}, es.flatMap block = fs.flatMap block → es = fs := by
  intro es
  induction es with
  | nil =>
      intro fs h
      cases fs with
      | nil => rfl
      | cons f fs => cases hbreaks : f.1 <;> simp [block, hbreaks] at h
  | cons e es ih =>
      intro fs h
      cases fs with
      | nil => cases hbreaks : e.1 <;> simp [block, hbreaks] at h
      | cons f fs =>
          obtain ⟨breaks, c⟩ := e
          obtain ⟨breaks', d⟩ := f
          rw [List.flatMap_cons, List.flatMap_cons] at h
          cases breaks with
          | true =>
              cases breaks' with
              | true =>
                  injection h with _ h
                  injection h with hline hrest
                  obtain rfl : c = d := componentLine_injective hline
                  rw [ih hrest]
              | false =>
                  injection h with hline _
                  exact absurd hline.symm (componentLine_ne_separator d)
          | false =>
              cases breaks' with
              | true =>
                  injection h with hline _
                  exact absurd hline (componentLine_ne_separator c)
              | false =>
                  injection h with hline hrest
                  obtain rfl : c = d := componentLine_injective hline
                  rw [ih hrest]

private theorem map_snd_parted (s : Screen) : s.parted.map (·.2) = s.components := by
  rw [parted, List.map_map]
  exact List.zipIdx_map_fst 0 s.components

private theorem getElem?_parted (s : Screen) (i : Nat) :
    s.parted[i]? = (s.components[i]?).map fun c => (s.opens i, c) := by
  simp [parted, Function.comp_def]

/-- Only a component that is there has anything before it. -/
theorem lt_length_of_breaksBefore {s : Screen} {i : Nat} {breaks : Bool}
    (h : s.breaksBefore i = .ok breaks) : i < s.components.length := by
  by_contra hi
  rw [breaksBefore, Sequence.at?_natCast, List.getElem?_eq_none (Nat.le_of_not_lt hi)] at h
  cases h

/-- Screens have the same components with the same separators exactly if the
components are the same and so are those that a separator stands before. -/
theorem parted_eq_iff {a b : Screen} :
    a.parted = b.parted ↔ a.components = b.components ∧
      {i : Nat | a.breaksBefore i = .ok true} = {i : Nat | b.breaksBefore i = .ok true} := by
  constructor
  · intro h
    have hcomponents : a.components = b.components := by
      rw [← map_snd_parted a, ← map_snd_parted b, h]
    have hopens : ∀ i < a.components.length, a.opens i = b.opens i := by
      intro i hi
      have hboth := congrArg (·[i]?) h
      simp only [getElem?_parted, ← hcomponents, List.getElem?_eq_getElem hi, Option.map_some,
        Option.some_inj] at hboth
      exact congrArg Prod.fst hboth
    refine ⟨hcomponents, Set.ext fun i => ⟨fun hi => ?_, fun hi => ?_⟩⟩
    · exact of_decide_eq_true ((hopens i (lt_length_of_breaksBefore hi)).symm.trans
        (decide_eq_true hi))
    · have hlt : i < a.components.length := hcomponents ▸ lt_length_of_breaksBefore hi
      exact of_decide_eq_true ((hopens i hlt).trans (decide_eq_true hi))
  · rintro ⟨hcomponents, hsame⟩
    have hopens : ∀ i, a.opens i = b.opens i := fun i => decide_eq_decide.2 (Set.ext_iff.1 hsame i)
    apply List.ext_getElem?
    intro i
    rw [getElem?_parted, getElem?_parted, hcomponents, hopens]

/-! ## Content from the lines of a card -/

theorem tellsComponent_of_mem_body {s : Screen} {l : String} (hl : l ∈ s.body) :
    tellsComponent l = true := by
  obtain ⟨e, -, hl⟩ := List.mem_flatMap.1 hl
  unfold part at hl
  split at hl
  · rcases List.mem_cons.1 hl with rfl | hl
    · decide
    · rw [List.mem_singleton.1 hl]
      exact tellsComponent_componentLine e.1
  · rw [List.mem_singleton.1 hl]
    exact tellsComponent_componentLine e.1

private theorem tellsComponent_of_mem_requirementLines {s : Screen} {l : String}
    (hl : l ∈ s.requirementLines) : tellsComponent l = false := by
  rcases mem_requirementLines hl with rfl | ⟨e, rfl⟩
  · decide
  · exact tellsComponent_requirementLine e

private theorem filter_requirementLines (s : Screen) :
    s.requirementLines.filter tellsRequirement = s.requirements.toList.map requirementLine := by
  have hall : ∀ entries : List (Category × String),
      (entries.map requirementLine).filter tellsRequirement = entries.map requirementLine := by
    intro entries
    rw [List.filter_eq_self]
    intro l hl
    obtain ⟨e, -, rfl⟩ := List.mem_map.1 hl
    exact tellsRequirement_requirementLine e
  have hgap : [""].filter tellsRequirement = [] := by decide
  unfold requirementLines
  split
  · rename_i hnone
    rw [hnone]
    rfl
  · rw [List.filter_append, hall, hgap, List.append_nil]

/-- The lines of the requirements, picked out from those below the name. -/
theorem filter_lines_requirement (s : Screen) :
    ("" :: (s.requirementLines ++ s.body)).filter tellsRequirement =
      s.requirements.toList.map requirementLine := by
  have hbody : s.body.filter tellsRequirement = [] := by
    rw [List.filter_eq_nil_iff]
    intro l hl hrequirement
    have hcomponent := tellsComponent_of_mem_body hl
    simp [tellsComponent, hrequirement] at hcomponent
  rw [List.filter_cons_of_neg (by decide), List.filter_append, hbody, List.append_nil,
    filter_requirementLines]

/-- The lines of the components, picked out from those below the name. -/
theorem filter_lines_body (s : Screen) :
    ("" :: (s.requirementLines ++ s.body)).filter tellsComponent = s.body := by
  have hnone : s.requirementLines.filter tellsComponent = [] := by
    rw [List.filter_eq_nil_iff]
    intro l hl
    simp [tellsComponent_of_mem_requirementLines hl]
  have hall : s.body.filter tellsComponent = s.body :=
    List.filter_eq_self.2 fun l hl => tellsComponent_of_mem_body hl
  rw [List.filter_cons_of_neg (by decide), List.filter_append, hnone, List.nil_append, hall]

/-- The first line of a card is never dropped. -/
theorem card_eq_cons {s : Screen} (h : ∀ k ∈ s.sections, 0 ≤ k) :
    s.card = .ok (("[" ++ s.name ++ "]") ::
      Sequence.dropEndWhile (· = "") ("" :: (s.requirementLines ++ s.body))) := by
  rw [card_eq h, heading, List.cons_append, Sequence.dropEndWhile_cons (by simp), List.cons_append]

/-! ## Cards and content -/

/-- Screens whose section breaks are not below zero have a card each, and the
cards are the same exactly if the screens have the same name, requirements and
components, and separators before the same components. So a card shows everything
about the content of its screen, whatever is written in names and descriptions, and
it depends on nothing else. -/
theorem card_tells_content (a b : Screen) (ha : ∀ k ∈ a.sections, 0 ≤ k)
    (hb : ∀ k ∈ b.sections, 0 ≤ k) :
    (∃ shown, a.card = .ok shown) ∧ (∃ shown, b.card = .ok shown) ∧
    (a.card = b.card ↔
      a.name = b.name ∧ a.requirements = b.requirements ∧ a.components = b.components ∧
        {i : Nat | a.breaksBefore i = .ok true} = {i : Nat | b.breaksBefore i = .ok true}) := by
  refine ⟨⟨_, card_eq ha⟩, ⟨_, card_eq hb⟩, ?_⟩
  rw [← parted_eq_iff, card_eq_cons ha, card_eq_cons hb, Except.ok.injEq]
  constructor
  · intro h
    injection h with hname hbelow
    have hrequirements := congrArg (List.filter tellsRequirement) hbelow
    have hbody := congrArg (List.filter tellsComponent) hbelow
    rw [Sequence.filter_dropEndWhile tellsRequirement_of_empty,
      Sequence.filter_dropEndWhile tellsRequirement_of_empty, filter_lines_requirement,
      filter_lines_requirement] at hrequirements
    rw [Sequence.filter_dropEndWhile tellsComponent_of_empty,
      Sequence.filter_dropEndWhile tellsComponent_of_empty, filter_lines_body, filter_lines_body,
      body_eq, body_eq] at hbody
    refine ⟨?_, ?_, flatMap_block_inj hbody⟩
    · simpa [← String.toList_inj] using hname
    · exact Requirements.toList_injective (requirementLine_injective.list_map hrequirements)
  · rintro ⟨hname, hrequirements, hparted⟩
    have hlines : a.requirementLines = b.requirementLines := by
      rw [requirementLines, requirementLines, hrequirements]
    rw [hname, hlines, body_eq, body_eq, hparted]

/-- The screen `dashed` with other section breaks and a transition. -/
def redashed : Screen where
  name := "------------"
  components := [⟨.field, "------------"⟩, ⟨.action, "---"⟩, ⟨.text, ""⟩, ⟨.action, "go"⟩]
  transitions := [⟨"Home", "go", ""⟩]
  sections := [2, 1]

theorem redashed_tells_content :
    dashed.card = redashed.card ∧ dashed.components = redashed.components ∧
      {i : Nat | dashed.breaksBefore i = .ok true} =
        {i : Nat | redashed.breaksBefore i = .ok true} := by
  obtain ⟨-, -, hiff⟩ := card_tells_content dashed redashed (by decide) (by decide)
  have hsame : dashed.card = redashed.card := by decide
  obtain ⟨-, -, hcomponents, hbreaks⟩ := hiff.1 hsame
  exact ⟨hsame, hcomponents, hbreaks⟩

end Screen

end Storyboard
