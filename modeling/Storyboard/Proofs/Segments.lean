import Mathlib.Data.List.Forall2
import Storyboard.Proofs.Grammar
import Storyboard.Proofs.LineByLine

/-!
# What a text says, segment by segment

A reading runs over the lines of a text with one screen open at a time. What a
text says can be told without that run: cut its lines before each header, and
each segment describes one screen by itself. The run keeps to this, because at
every line the open screen is the one that its segment has described so far.

## Main results

* `Notation.IsCut`, `Notation.Segment.Describes` — the cut of a text, and what
  a segment says about a screen.
* `Notation.IsCut.unique`, `Notation.Segment.Describes.unique` — there is one
  cut, and a segment describes one screen.
* `Notation.step_describes` — one line keeps the open screen to its segment.
* `Notation.read_described` — a text is read as the screens that its segments
  describe.
-/

namespace Storyboard.Notation

/-! ## Segments -/

/-- The lines of a text that are not blank, trimmed. -/
def contents (text : String) : List (List Char) :=
  ((Text.lines text.toList).map Text.trim).filter (· ≠ [])

/-- A header and the lines after it. -/
structure Segment where
  header : List Char
  body : List (List Char)
deriving DecidableEq, Repr

/-- All lines of a segment. -/
def Segment.lines (g : Segment) : List (List Char) := g.header :: g.body

/-- Whether no line among some opens a screen. -/
def Headless (ls : List (List Char)) : Prop := ∀ line ∈ ls, ∀ name, ¬Opens line name

/-- Whether a segment is a line that opens a screen and lines that do not. -/
structure Segment.Proper (g : Segment) : Prop where
  header : ∃ name, Opens g.header name
  body : Headless g.body

/-- Whether some lines are cut, before each line that opens a screen, into a
lead and segments. -/
structure IsCut (ls lead : List (List Char)) (segments : List Segment) : Prop where
  whole : ls = lead ++ segments.flatMap Segment.lines
  lead : Headless lead
  proper : ∀ g ∈ segments, g.Proper

/-! ## What a segment says -/

namespace Item

/-- The component that an item is. -/
def components : Item → List Component
  | .action label _ => [⟨.action, label⟩]
  | .component c => [c]
  | _ => []

/-- The transition that an item is. -/
def transitions : Item → List Transition
  | .action label target => [{ target := target, trigger := label }]
  | .conditional condition target => [{ target := target, condition := condition }]
  | .jump target => [{ target := target }]
  | _ => []

/-- The description that an item gives for a category. -/
def description? (category : Category) : Item → Option String
  | .requirement c text => if c = category then some text else none
  | _ => none

end Item

/-- Whether `items` are what some lines add, in order. -/
inductive Yields : List (List Char) → List Item → Prop where
  | nil : Yields [] []
  | adds {line : List Char} {item : Item} {ls : List (List Char)} {items : List Item} :
      Adds line item → Yields ls items → Yields (line :: ls) (item :: items)
  | passes {line : List Char} {ls : List (List Char)} {items : List Item} :
      (∀ item, ¬Adds line item) → Yields ls items → Yields (line :: ls) items

/-- Whether the section break with number `j` among some lines, counted from
zero, has `k` components before it. -/
def BreaksAfter (ls : List (List Char)) (j : Nat) (k : Int) : Prop :=
  ∃ before after items, ls = before ++ ['-', '-'] :: after ∧ before.count ['-', '-'] = j ∧
    Yields before items ∧ k = (items.flatMap Item.components).length

/-- Whether some numbers are those of the components before each section
break among some lines. -/
structure SectionsOf (ls : List (List Char)) (sections : List Int) : Prop where
  length : sections.length = ls.count ['-', '-']
  get? : ∀ j k, sections[j]? = some k ↔ BreaksAfter ls j k

/-- What a segment says about a screen. For a category described more than
once, the last description counts. -/
structure Segment.Describes (g : Segment) (s : Screen) : Prop where
  name : Opens g.header s.name
  items : ∃ items, Yields g.body items ∧
    s.components = items.flatMap Item.components ∧
    s.transitions = items.flatMap Item.transitions ∧
    ∀ c, s.requirements.get? c = (items.filterMap (Item.description? c)).getLast?
  sections : SectionsOf g.body s.sections

/-! ## One cut -/

variable {ls lead lead' more rest : List (List Char)} {segments segments' : List Segment}

/-- A segment does not begin with lines that open nothing. -/
theorem Headless.eq_nil_of_segments (h : Headless more) (hproper : ∀ g ∈ segments, g.Proper)
    (heq : segments.flatMap Segment.lines = more ++ rest) : more = [] := by
  cases more with
  | nil => rfl
  | cons line more =>
      cases segments with
      | nil => cases heq
      | cons g gs =>
          obtain ⟨name, hname⟩ := (hproper g (by simp)).header
          have hline : g.header = line := (List.cons.inj heq).1
          exact absurd (hline ▸ hname) (h line (by simp) name)

/-- Lines that open nothing, before segments, end where the segments begin. -/
theorem append_segments_inj (hlead : Headless lead) (hlead' : Headless lead')
    (hproper : ∀ g ∈ segments, g.Proper) (hproper' : ∀ g ∈ segments', g.Proper)
    (h : lead ++ segments.flatMap Segment.lines = lead' ++ segments'.flatMap Segment.lines) :
    lead = lead' ∧ segments.flatMap Segment.lines = segments'.flatMap Segment.lines := by
  rcases List.append_eq_append_iff.1 h with ⟨more, hmore, hrest⟩ | ⟨more, hmore, hrest⟩
  · have hheadless : Headless more := fun line hline => hlead' line (by simp [hmore, hline])
    have hnil := hheadless.eq_nil_of_segments hproper hrest
    rw [hnil, List.append_nil] at hmore
    rw [hnil, List.nil_append] at hrest
    exact ⟨hmore.symm, hrest⟩
  · have hheadless : Headless more := fun line hline => hlead line (by simp [hmore, hline])
    have hnil := hheadless.eq_nil_of_segments hproper' hrest
    rw [hnil, List.append_nil] at hmore
    rw [hnil, List.nil_append] at hrest
    exact ⟨hmore, hrest.symm⟩

private theorem segments_inj (hproper : ∀ g ∈ segments, g.Proper)
    (hproper' : ∀ g ∈ segments', g.Proper)
    (h : segments.flatMap Segment.lines = segments'.flatMap Segment.lines) :
    segments = segments' := by
  induction segments generalizing segments' with
  | nil =>
      cases segments' with
      | nil => rfl
      | cons g gs => cases h
  | cons g gs ih =>
      cases segments' with
      | nil => cases h
      | cons g' gs' =>
          have htail : ∀ d ∈ gs, d.Proper := fun d hd => hproper d (by simp [hd])
          have htail' : ∀ d ∈ gs', d.Proper := fun d hd => hproper' d (by simp [hd])
          obtain ⟨hheader, hrest⟩ := List.cons.inj h
          obtain ⟨hbody, hlines⟩ := append_segments_inj (hproper g (by simp)).body
            (hproper' g' (by simp)).body htail htail' hrest
          obtain ⟨header, body⟩ := g
          obtain ⟨header', body'⟩ := g'
          rw [ih htail htail' hlines, show header = header' from hheader,
            show body = body' from hbody]

/-- Lines have one cut. -/
theorem IsCut.unique (h : IsCut ls lead segments) (h' : IsCut ls lead' segments') :
    lead = lead' ∧ segments = segments' := by
  obtain ⟨hlead, hsegments⟩ := append_segments_inj h.lead h'.lead h.proper h'.proper
    (h.whole.symm.trans h'.whole)
  exact ⟨hlead, segments_inj h.proper h'.proper hsegments⟩

theorem IsCut.nil : IsCut [] [] [] := ⟨rfl, by simp [Headless], by simp⟩

/-- A header opens a segment with what was the lead after it. -/
theorem IsCut.header (h : IsCut ls lead segments) {line : List Char} {name : String}
    (hline : Opens line name) : IsCut (line :: ls) [] (⟨line, lead⟩ :: segments) where
  whole := by rw [h.whole]; rfl
  lead := by simp [Headless]
  proper := List.forall_mem_cons.2 ⟨⟨⟨name, hline⟩, h.lead⟩, h.proper⟩

/-- Any other line goes before what was the lead. -/
theorem IsCut.other (h : IsCut ls lead segments) {line : List Char}
    (hline : ∀ name, ¬Opens line name) : IsCut (line :: ls) (line :: lead) segments where
  whole := by rw [h.whole]; rfl
  lead := List.forall_mem_cons.2 ⟨hline, h.lead⟩
  proper := h.proper

/-! ## One description -/

namespace Yields

variable {items items' : List Item}

theorem unique (h : Yields ls items) (h' : Yields ls items') : items = items' := by
  induction h generalizing items' with
  | nil =>
      cases h'
      rfl
  | adds hadds _ ih =>
      cases h' with
      | adds hadds' hrest' => rw [hadds.unique hadds', ih hrest']
      | passes hnone _ => exact absurd hadds (hnone _)
  | passes hnone _ ih =>
      cases h' with
      | adds hadds' _ => exact absurd hadds' (hnone _)
      | passes _ hrest' => exact ih hrest'

theorem append (h : Yields ls items) {ls' : List (List Char)} (h' : Yields ls' items') :
    Yields (ls ++ ls') (items ++ items') := by
  induction h with
  | nil => exact h'
  | adds hadds _ ih => exact .adds hadds ih
  | passes hnone _ ih => exact .passes hnone ih

end Yields

namespace Segment.Describes

variable {g : Segment} {s s' : Screen}

/-- A segment describes one screen. -/
theorem unique (h : g.Describes s) (h' : g.Describes s') : s = s' := by
  obtain ⟨items, hyields, hcomponents, htransitions, hrequirements⟩ := h.items
  obtain ⟨items', hyields', hcomponents', htransitions', hrequirements'⟩ := h'.items
  rw [← hyields.unique hyields'] at hcomponents' htransitions' hrequirements'
  have hsections : s.sections = s'.sections := by
    apply List.ext_getElem?
    intro j
    apply Option.ext
    intro k
    rw [h.sections.get?, h'.sections.get?]
  have hget : s.requirements = s'.requirements :=
    Requirements.ext_get? fun c => (hrequirements c).trans (hrequirements' c).symm
  obtain ⟨name, components, requirements, transitions, sections⟩ := s
  obtain ⟨name', components', requirements', transitions', sections'⟩ := s'
  have hname : name = name' := h.name.unique h'.name
  rw [hname, show components = components' from hcomponents.trans hcomponents'.symm,
    show requirements = requirements' from hget,
    show transitions = transitions' from htransitions.trans htransitions'.symm,
    show sections = sections' from hsections]

end Segment.Describes

/-! ## One more line -/

/-- The segment with more lines at its end. -/
def Segment.extend (g : Segment) (more : List (List Char)) : Segment :=
  { g with body := g.body ++ more }

@[simp] theorem Segment.extend_nil (g : Segment) : g.extend [] = g := by
  simp [extend]

@[simp] theorem Segment.extend_extend (g : Segment) (ls ls' : List (List Char)) :
    (g.extend ls).extend ls' = g.extend (ls ++ ls') := by
  simp [extend]

/-- A section break of the lines with one more is one of the lines, or the
last line. -/
theorem breaksAfter_concat_iff {line : List Char} {j : Nat} {k : Int} :
    BreaksAfter (ls ++ [line]) j k ↔ BreaksAfter ls j k ∨
      line = ['-', '-'] ∧ ls.count ['-', '-'] = j ∧
        ∃ items, Yields ls items ∧ k = (items.flatMap Item.components).length := by
  constructor
  · rintro ⟨before, after, items, hls, hcount, hyields, hk⟩
    rcases List.eq_nil_or_concat after with rfl | ⟨after, last, rfl⟩
    · obtain ⟨rfl, hline⟩ := List.append_inj' hls rfl
      exact Or.inr ⟨(List.cons.inj hline).1, hcount, items, hyields, hk⟩
    · rw [List.concat_eq_append, ← List.cons_append, ← List.append_assoc] at hls
      exact Or.inl ⟨before, after, items, (List.append_inj' hls rfl).1, hcount, hyields, hk⟩
  · rintro (⟨before, after, items, rfl, hcount, hyields, hk⟩ | ⟨rfl, hcount, items, hyields, hk⟩)
    · exact ⟨before, after ++ [line], items, by simp, hcount, hyields, hk⟩
    · exact ⟨ls, [], items, rfl, hcount, hyields, hk⟩

namespace SectionsOf

variable {sections : List Int} {line : List Char}

theorem nil : SectionsOf [] [] where
  length := rfl
  get? := by
    intro j k
    constructor
    · intro hnone
      simp at hnone
    · rintro ⟨before, after, items, hnil, -⟩
      simp at hnil

/-- A line that is not a section break changes no section. -/
theorem concat_other (h : SectionsOf ls sections) (hline : line ≠ ['-', '-']) :
    SectionsOf (ls ++ [line]) sections where
  length := by
    rw [List.count_append, List.count_singleton, h.length]
    simp [hline]
  get? := by
    intro j k
    rw [breaksAfter_concat_iff, h.get?]
    simp [hline]

/-- A section break adds the number of the components so far. -/
theorem concat_break (h : SectionsOf ls sections) {items : List Item} (hyields : Yields ls items) :
    SectionsOf (ls ++ [['-', '-']])
      (sections ++ [((items.flatMap Item.components).length : Int)]) where
  length := by
    rw [List.count_append, List.count_singleton, List.length_append, List.length_singleton,
      h.length]
    simp
  get? := by
    intro j k
    have hlast : (∃ items, Yields ls items ∧ k = ((items.flatMap Item.components).length : Int)) ↔
        ((items.flatMap Item.components).length : Int) = k := by
      constructor
      · rintro ⟨items', hyields', rfl⟩
        rw [hyields.unique hyields']
      · rintro rfl
        exact ⟨items, hyields, rfl⟩
    rw [breaksAfter_concat_iff, ← h.get?, ← h.length, hlast, List.getElem?_append]
    by_cases hj : j < sections.length
    · rw [if_pos hj]
      simp [show sections.length ≠ j by omega]
    · rw [if_neg hj, List.getElem?_eq_none (show sections.length ≤ j by omega)]
      rw [List.getElem?_singleton]
      by_cases hlen : sections.length = j
      · simp [hlen]
      · simp [hlen, show j - sections.length ≠ 0 by omega]

end SectionsOf

/-! What an item changes in a screen, part by part. -/

@[simp] theorem name_add (s : Screen) (item : Item) : (s.add item).name = s.name := by
  cases item <;> rfl

@[simp] theorem components_add (s : Screen) (item : Item) :
    (s.add item).components = s.components ++ item.components := by
  cases item <;> simp [Screen.add, Item.components]

@[simp] theorem transitions_add (s : Screen) (item : Item) :
    (s.add item).transitions = s.transitions ++ item.transitions := by
  cases item <;> simp [Screen.add, Item.transitions]

private theorem get?_requirements_add (s : Screen) (item : Item) (c : Category) :
    (s.add item).requirements.get? c =
      (item.description? c).or (s.requirements.get? c) := by
  cases item with
  | requirement category text =>
      rw [Screen.add, Requirements.get?_set, Item.description?]
      by_cases hc : c = category
      · simp [hc]
      · simp [hc, Ne.symm hc]
  | _ => rfl

theorem sections_add_of_ne (s : Screen) {item : Item} (h : item ≠ .sectionBreak) :
    (s.add item).sections = s.sections := by
  cases item with
  | sectionBreak => exact absurd rfl h
  | _ => rfl

namespace Segment.Describes

variable {g : Segment} {s : Screen} {line : List Char} {item : Item}

/-- A header alone describes a screen with nothing in it. -/
theorem opened {name : String} (h : Opens line name) :
    Segment.Describes ⟨line, []⟩ { name := name } where
  name := h
  items := ⟨[], .nil, rfl, rfl, fun c => by cases c <;> rfl⟩
  sections := .nil

/-- What a line adds is described by the segment with that line. -/
theorem add (h : g.Describes s) (hadds : Adds line item) :
    (g.extend [line]).Describes (s.add item) := by
  obtain ⟨items, hyields, hcomponents, htransitions, hrequirements⟩ := h.items
  have hitems : Yields (g.body ++ [line]) (items ++ [item]) := hyields.append (.adds hadds .nil)
  refine ⟨by rw [name_add]; exact h.name, ⟨items ++ [item], hitems, ?_, ?_, fun c => ?_⟩, ?_⟩
  · rw [components_add, hcomponents, List.flatMap_append, List.flatMap_singleton]
  · rw [transitions_add, htransitions, List.flatMap_append, List.flatMap_singleton]
  · rw [get?_requirements_add, hrequirements, List.filterMap_append, List.getLast?_append,
      List.filterMap_cons]
    cases item.description? c with
    | none => rfl
    | some text => rfl
  · by_cases hline : line = ['-', '-']
    · subst hline
      obtain rfl : item = .sectionBreak := hadds.unique .sectionBreak
      have hsections : (s.add .sectionBreak).sections =
          s.sections ++ [((items.flatMap Item.components).length : Int)] := by
        rw [← hcomponents]
        rfl
      rw [hsections]
      exact h.sections.concat_break hyields
    · have hitem : item ≠ .sectionBreak := by
        rintro rfl
        cases hadds
        exact hline rfl
      rw [sections_add_of_ne s hitem]
      exact h.sections.concat_other hline

/-- A line that adds nothing says nothing. -/
theorem pass (h : g.Describes s) (hnone : ∀ item, ¬Adds line item) :
    (g.extend [line]).Describes s := by
  obtain ⟨items, hyields, hparts⟩ := h.items
  have hitems : Yields (g.body ++ [line]) (items ++ []) := hyields.append (.passes hnone .nil)
  rw [List.append_nil] at hitems
  have hline : line ≠ ['-', '-'] := by
    rintro rfl
    exact hnone .sectionBreak .sectionBreak
  exact ⟨h.name, ⟨items, hitems, hparts⟩, h.sections.concat_other hline⟩

end Segment.Describes

/-! ## The run -/

/-- A line that opens nothing closes nothing, and the screen that is open is
still the one that its segment describes, with that line. -/
theorem step_describes {pending : Option Segment} {current : Option Screen}
    (h : List.Forall₂ Segment.Describes pending.toList current.toList) {line : List Char}
    (hline : ∀ name, ¬Opens line name) :
    (step current (Line.read line)).closed = none ∧
      List.Forall₂ Segment.Describes (pending.map (·.extend [line])).toList
        (step current (Line.read line)).opened.toList := by
  rcases step_cases current line with ⟨name, hopens, -⟩ | ⟨s, item, rfl, hadds, hstep⟩ |
    ⟨-, hnone, reason, hstep⟩
  · exact absurd hopens (hline name)
  · rw [hstep]
    refine ⟨rfl, ?_⟩
    cases pending with
    | none => cases h
    | some g =>
        cases h with
        | cons hs _ => exact .cons (hs.add hadds) .nil
  · rw [hstep]
    refine ⟨rfl, ?_⟩
    cases pending with
    | none => exact h
    | some g =>
        cases current with
        | none => cases h
        | some s =>
            cases h with
            | cons hs _ => exact .cons (hs.pass (hnone s rfl)) .nil

/-- Lines read with a screen open, or none, are those of a cut: the screen
that is open takes the lead, and each segment is a screen. -/
theorem readLines_described (ls : List (List Char)) :
    ∀ (pending : Option Segment) (current : Option Screen) (number : Nat),
      List.Forall₂ Segment.Describes pending.toList current.toList →
        ∃ lead segments, IsCut ((ls.map Text.trim).filter (· ≠ [])) lead segments ∧
          List.Forall₂ Segment.Describes ((pending.map (·.extend lead)).toList ++ segments)
            (readLines current number ls).1 := by
  induction ls with
  | nil =>
      intro pending current number h
      refine ⟨[], [], .nil, ?_⟩
      simpa [readLines] using h
  | cons raw rest ih =>
      intro pending current number h
      by_cases hblank : Text.trim raw = []
      · rw [readLines_blank hblank, List.map_cons, hblank]
        exact ih pending current (number + 1) h
      · have hkept : ((raw :: rest).map Text.trim).filter (· ≠ []) =
            Text.trim raw :: (rest.map Text.trim).filter (· ≠ []) := by
          simp [hblank]
        rw [readLines_line hblank, hkept]
        by_cases hline : ∃ name, Opens (Text.trim raw) name
        · obtain ⟨name, hopens⟩ := hline
          rw [read_eq_header_iff.2 hopens]
          obtain ⟨lead, segments, hcut, hdescribes⟩ := ih (some ⟨Text.trim raw, []⟩)
            (some { name := name }) (number + 1) (.cons (.opened hopens) .nil)
          refine ⟨[], ⟨Text.trim raw, lead⟩ :: segments, hcut.header hopens, ?_⟩
          have hpending : pending.map (·.extend []) = pending := by
            cases pending <;> simp
          rw [hpending]
          exact List.rel_append h hdescribes
        · have hother : ∀ name, ¬Opens (Text.trim raw) name := fun name hname => hline ⟨name, hname⟩
          obtain ⟨hclosed, hopened⟩ := step_describes h hother
          obtain ⟨lead, segments, hcut, hdescribes⟩ := ih _ _ (number + 1) hopened
          refine ⟨Text.trim raw :: lead, segments, hcut.other hother, ?_⟩
          rw [hclosed]
          cases pending with
          | none => exact hdescribes
          | some g => simpa using hdescribes

/-- The lines of a text have one cut, and what the text is read as are exactly
the screens that the segments of the cut describe, one for each, in order.
What stands before the first header says nothing. -/
theorem read_described (text : String) :
    ∃ lead segments, IsCut (contents text) lead segments ∧
      (∀ lead' segments', IsCut (contents text) lead' segments' →
        lead = lead' ∧ segments = segments') ∧
      ∀ screens, List.Forall₂ Segment.Describes segments screens ↔
        (read text).flow.screens = screens := by
  obtain ⟨lead, segments, hcut, hdescribes⟩ :=
    readLines_described (Text.lines text.toList) none none 1 .nil
  refine ⟨lead, segments, hcut, fun lead' segments' => hcut.unique, fun screens => ?_⟩
  constructor
  · intro h
    exact List.right_unique_forall₂' (fun _ _ _ hs hs' => hs.unique hs') hdescribes h
  · rintro rfl
    exact hdescribes

end Storyboard.Notation
