import Mathlib.Data.List.Nodup
import Mathlib.Data.List.Perm.Subperm
import Mathlib.Order.Bounds.Basic
import Storyboard.Painter.ImageSheet
import Storyboard.Painter.TextSheet
import Storyboard.Proofs.BoxMeasures
import Storyboard.Proofs.Cards
import Storyboard.Proofs.Sequence

/-!
# Rules between the sections of a card

A section break opens its section with the first action that follows it, wherever
that is, and a break after the last action opens nothing. Several breaks may open
a section with the same action. On the card a separator stands right before the
line of each such action, once, and nowhere else: no other line of a card can look
like one, since each has a character that is no dash, whatever names and
descriptions say. That is also why the two painters take the same lines for rules,
though one goes by the characters of a line and the other by the whole of it.

## Main results

* `Screen.OpensSection` — the actions that open a section.
* `Screen.breaksBefore_eq_true_iff` — they are those with a separator before them.
* `Screen.lineOf`, `Screen.getElem?_card_separator` — where the lines of
  components and the separators stand on a card.
* `Screen.count_separator_le` — there are no more separators than section breaks.
* `Screen.CardLine.isRule_iff` — which lines of a card are drawn as rules.
* `Screen.card_sections` — all of this for one screen.
-/

namespace Storyboard

namespace Screen

/-! ## Actions that open a section -/

/-- Whether the component at a position is there and is an action. -/
def ActionAt (s : Screen) (j : Nat) : Prop :=
  ∃ c, s.components[j]? = some c ∧ c.kind = .action

/-- Whether the component at a position opens a section: it is the first action at
or after some section break. -/
def OpensSection (s : Screen) (i : Nat) : Prop :=
  ∃ k ∈ s.sections, IsLeast {j : Nat | k ≤ j ∧ s.ActionAt j} i

variable {s : Screen}

private theorem isActionAt_iff {j : Nat} : s.isActionAt j = true ↔ s.ActionAt j := by
  rw [isActionAt, Sequence.at?_natCast, ActionAt]
  cases s.components[j]? with
  | none => simp
  | some c => simp

private theorem ActionAt.lt_length {j : Nat} (h : s.ActionAt j) : j < s.components.length := by
  obtain ⟨c, hc, -⟩ := h
  exact (List.getElem?_eq_some_iff.1 hc).1

theorem OpensSection.actionAt {i : Nat} (h : s.OpensSection i) : s.ActionAt i := by
  obtain ⟨k, -, hleast⟩ := h
  exact hleast.1.2

/-- Looking for an action from a break on finds the first. -/
theorem find?_positionsFrom_iff {k : Int} (hk : 0 ≤ k) {i : Nat} :
    (s.positionsFrom k).find? s.isActionAt = some (i : Int) ↔
      IsLeast {j : Nat | k ≤ j ∧ s.ActionAt j} i := by
  lift k to Nat using hk
  rw [positionsFrom, List.find?_map, Option.map_eq_some_iff]
  simp only [List.find?_range_eq_some, List.mem_range, Function.comp_apply, ← Int.natCast_add,
    Bool.not_eq_true', Bool.eq_false_iff, ne_eq, isActionAt_iff, Int.natCast_inj, Int.ofNat_le]
  constructor
  · rintro ⟨a, ⟨haction, -, hearlier⟩, rfl⟩
    refine ⟨⟨Nat.le_add_right k a, haction⟩, ?_⟩
    rintro j ⟨hkj, hj⟩
    by_contra hlt
    have hnot := hearlier (j - k) (by omega)
    rw [show k + (j - k) = j by omega] at hnot
    exact hnot hj
  · rintro ⟨⟨hki, haction⟩, hleast⟩
    have hi := haction.lt_length
    have hsum : k + (i - k) = i := by omega
    refine ⟨i - k, ⟨by rwa [hsum], by omega, fun j hj hother => ?_⟩, hsum⟩
    have hle : i ≤ k + j := hleast ⟨Nat.le_add_right k j, hother⟩
    omega

private theorem openedBy_eq_true_iff {i : Nat} :
    ∀ sections : List Int, (∀ k ∈ sections, 0 ≤ k) →
      (s.openedBy i sections = .ok true ↔
        ∃ k ∈ sections, IsLeast {j : Nat | k ≤ j ∧ s.ActionAt j} i) := by
  intro sections
  induction sections with
  | nil =>
      intro _
      simp [openedBy]
  | cons start rest ih =>
      intro hsections
      have hstart : 0 ≤ start := hsections start List.mem_cons_self
      have hrest := ih fun k hk => hsections k (List.mem_cons_of_mem start hk)
      rw [List.exists_mem_cons_iff, ← hrest, openedBy]
      by_cases hlater : (i : Int) < start
      · -- the break comes after the component, and opens nothing before itself
        rw [if_pos hlater]
        constructor
        · exact Or.inr
        · rintro (hleast | hother)
          · have hle : start ≤ i := hleast.1.1
            omega
          · exact hother
      · rw [if_neg hlater, firstActionFrom, if_neg (by omega), ← find?_positionsFrom_iff hstart]
        dsimp only
        by_cases hfirst : (s.positionsFrom start).find? s.isActionAt = some (i : Int)
        · simp [hfirst]
        · simp [hfirst]

/-- A separator stands before the actions that open a section. -/
theorem breaksBefore_eq_true_iff (h : ∀ k ∈ s.sections, 0 ≤ k) {i : Nat}
    (hi : i < s.components.length) : s.breaksBefore i = .ok true ↔ s.OpensSection i := by
  rw [breaksBefore, Sequence.at?_natCast, List.getElem?_eq_getElem hi]
  dsimp only
  by_cases haction : s.components[i].kind = .action
  · rw [if_pos haction]
    exact openedBy_eq_true_iff s.sections h
  · rw [if_neg haction]
    constructor
    · intro hfalse
      cases hfalse
    · intro hopens
      obtain ⟨c, hc, hkind⟩ := hopens.actionAt
      rw [List.getElem?_eq_getElem hi] at hc
      cases hc
      exact absurd hkind haction

/-! ## Lines that are no separators -/

theorem ne_separator_of_mem {line : String} {c : Char} (hc : c ∈ line.toList) (hne : c ≠ '-') :
    line ≠ separator := by
  intro heq
  have hdashes : separator.toList = List.replicate 12 '-' := by decide
  rw [heq, hdashes] at hc
  exact hne (List.eq_of_mem_replicate hc)

/-- A line of a card other than the separator is empty or has a character that is
no dash. -/
theorem CardLine.cases_dash {l : String} (h : s.CardLine l) :
    l = separator ∨ l = "" ∨ ∃ c ∈ l.toList, c ≠ '-' := by
  cases h with
  | name => exact Or.inr (Or.inr ⟨'[', by simp, by decide⟩)
  | gap => exact Or.inr (Or.inl rfl)
  | requirement e => exact Or.inr (Or.inr ⟨':', by simp [requirementLine], by decide⟩)
  | rule => exact Or.inl rfl
  | component c => exact Or.inr (Or.inr ⟨':', by simp [componentLine], by decide⟩)

theorem componentLine_ne_separator (c : Component) : componentLine c ≠ separator :=
  ne_separator_of_mem (c := ':') (by simp [componentLine]) (by decide)

theorem componentLine_ne_empty (c : Component) : componentLine c ≠ "" := by
  rw [← String.toList_eq_nil_iff.ne]
  exact List.ne_nil_of_mem (show ':' ∈ (componentLine c).toList by simp [componentLine])

/-- Which lines of a card a text painter draws as rules. -/
theorem CardLine.isRule_iff {l : String} (h : s.CardLine l) (o : TextSheet.Options) :
    o.boxStyle.isRule l = true ↔ l = separator := by
  constructor
  · intro hrule
    obtain ⟨hnonempty, hdashes⟩ := Box.isRule_iff.1 hrule
    rcases h.cases_dash with hsep | hnil | ⟨c, hc, hne⟩
    · exact hsep
    · exact absurd hnil hnonempty
    · have hdash : String.singleton c = String.singleton '-' := hdashes c hc
      have hchar : c = '-' := by simpa [← String.toList_inj] using hdash
      exact absurd hchar hne
  · intro hsep
    have hmark : Box.Style.isRule {} separator = true := by decide
    rw [hsep]
    exact hmark

/-- Which lines a picture painter draws as rules. -/
theorem exists_rule_iff (o : ImageSheet.Options) (pen : ImageSheet.Pen) (f : Frame) (y : Int)
    (l : String) :
    (∃ points color width, Mark.line points color width ∈ ImageSheet.lineMarks o pen f y [l]) ↔
      l = separator := by
  simp only [ImageSheet.lineMarks, List.append_nil]
  by_cases hsep : l = separator
  · simp [hsep]
  · by_cases hnil : l = ""
    · simp [hnil]
    · simp [hsep, hnil]

/-! ## The lines of a card -/

/-- The number of the first line of a component on the card. -/
def partStart (s : Screen) (i : Nat) : Nat :=
  s.heading.length + ((s.components.zipIdx.take i).flatMap s.part).length

/-- The number of the line of a component on the card. -/
def lineOf (s : Screen) (i : Nat) : Nat :=
  s.partStart i + if s.opens i then 1 else 0

private theorem ne_separator_of_mem_heading {l : String} (hl : l ∈ s.heading) : l ≠ separator := by
  rcases List.mem_cons.1 hl with rfl | hl
  · exact ne_separator_of_mem (c := '[') (by simp) (by decide)
  · rcases List.mem_cons.1 hl with rfl | hl
    · decide
    · rcases mem_requirementLines hl with rfl | ⟨e, rfl⟩
      · decide
      · exact ne_separator_of_mem (c := ':') (by simp [requirementLine]) (by decide)

private theorem getElem?_part_separator {e : Component × Nat} {m : Nat} :
    (s.part e)[m]? = some separator ↔ s.opens e.2 = true ∧ m = 0 := by
  have hne := componentLine_ne_separator e.1
  unfold part
  cases s.opens e.2 with
  | true =>
      match m with
      | 0 => simp
      | 1 => simp [hne]
      | m + 2 => simp
  | false =>
      match m with
      | 0 => simp [hne]
      | m + 1 => simp

theorem getElem?_zipIdx_components {i : Nat} {e : Component × Nat} :
    s.components.zipIdx[i]? = some e ↔ s.components[i]? = some e.1 ∧ e.2 = i := by
  rw [List.getElem?_zipIdx, Nat.zero_add]
  cases s.components[i]? with
  | none => simp
  | some c =>
      rw [Option.map_some, Option.some_inj, Option.some_inj, Prod.ext_iff]
      exact and_congr_right fun _ => eq_comm

/-- The separators among all lines, the empty ones at the end included. -/
theorem getElem?_separator {n : Nat} :
    (s.heading ++ s.body)[n]? = some separator ↔
      ∃ i, i < s.components.length ∧ s.opens i = true ∧ n = s.partStart i := by
  by_cases hn : n < s.heading.length
  · rw [List.getElem?_append_left hn]
    constructor
    · intro hsep
      exact absurd rfl (ne_separator_of_mem_heading (List.mem_of_getElem? hsep))
    · rintro ⟨i, -, -, rfl⟩
      unfold partStart at hn
      omega
  · rw [List.getElem?_append_right (Nat.le_of_not_lt hn), body, Sequence.getElem?_flatMap_iff]
    constructor
    · rintro ⟨i, e, m, he, hm, hplace⟩
      obtain ⟨hc, rfl⟩ := getElem?_zipIdx_components.1 he
      obtain ⟨hopens, rfl⟩ := getElem?_part_separator.1 hm
      refine ⟨e.2, (List.getElem?_eq_some_iff.1 hc).1, hopens, ?_⟩
      unfold partStart
      omega
    · rintro ⟨i, hi, hopens, rfl⟩
      have he : s.components.zipIdx[i]? = some (s.components[i], i) :=
        getElem?_zipIdx_components.2 ⟨List.getElem?_eq_getElem hi, rfl⟩
      refine ⟨i, (s.components[i], i), 0, he, getElem?_part_separator.2 ⟨hopens, rfl⟩, ?_⟩
      unfold partStart
      omega

/-- The line of a component among all lines. -/
theorem getElem?_lineOf {i : Nat} {c : Component} (hc : s.components[i]? = some c) :
    (s.heading ++ s.body)[s.lineOf i]? = some (componentLine c) := by
  have hline : (s.part (c, i))[if s.opens i then 1 else 0]? = some (componentLine c) := by
    unfold part
    cases s.opens i with
    | true => rfl
    | false => rfl
  have he : s.components.zipIdx[i]? = some (c, i) := getElem?_zipIdx_components.2 ⟨hc, rfl⟩
  rw [lineOf, partStart, Nat.add_assoc, List.getElem?_append_right (Nat.le_add_right _ _),
    Nat.add_sub_cancel_left, body, Sequence.getElem?_flatMap_iff]
  exact ⟨i, (c, i), _, he, hline, rfl⟩

/-- The lines of a component end with its own. -/
theorem partStart_succ {i : Nat} (hi : i < s.components.length) :
    s.partStart (i + 1) = s.lineOf i + 1 := by
  have he : s.components.zipIdx[i]? = some (s.components[i], i) :=
    getElem?_zipIdx_components.2 ⟨List.getElem?_eq_getElem hi, rfl⟩
  have hlength : (s.part (s.components[i], i)).length = (if s.opens i then 1 else 0) + 1 := by
    unfold part
    cases s.opens i with
    | true => rfl
    | false => rfl
  rw [partStart, Sequence.length_take_succ_flatMap s.part he, hlength, lineOf, partStart]
  omega

private theorem partStart_le {i j : Nat} (h : i ≤ j) : s.partStart i ≤ s.partStart j := by
  induction j, h using Nat.le_induction with
  | base => exact Nat.le_refl _
  | succ j _ ih =>
      apply Nat.le_trans ih
      unfold partStart
      rw [List.take_add_one, List.flatMap_append, List.length_append]
      omega

/-- The lines of components stand in the order of the components. -/
theorem lineOf_lt {i j : Nat} (hij : i < j) (hj : j < s.components.length) :
    s.lineOf i < s.lineOf j :=
  calc s.lineOf i
      < s.lineOf i + 1 := Nat.lt_succ_self _
    _ = s.partStart (i + 1) := (partStart_succ (Nat.lt_trans hij hj)).symm
    _ ≤ s.partStart j := partStart_le hij
    _ ≤ s.lineOf j := Nat.le_add_right _ _

/-! ## Separators and section breaks -/

theorem count_separator_flatMap (es : List (Component × Nat)) :
    (es.flatMap s.part).count separator = (es.map (·.2)).countP s.opens := by
  induction es with
  | nil => rfl
  | cons e es ih =>
      have hne := componentLine_ne_separator e.1
      rw [List.flatMap_cons, List.count_append, ih, List.map_cons, List.countP_cons, part]
      cases s.opens e.2 with
      | true => simp [hne, Nat.add_comm]
      | false => simp [hne]

/-- Of the positions of components, no more open a section than there are
breaks. -/
theorem countP_opens_le (h : ∀ k ∈ s.sections, 0 ≤ k) :
    (List.range s.components.length).countP s.opens ≤ s.sections.length := by
  have hsubset : ((List.range s.components.length).filter s.opens).map (fun i : Nat => (i : Int)) ⊆
      s.sections.filterMap fun k => (s.positionsFrom k).find? s.isActionAt := by
    intro a ha
    obtain ⟨i, hi, rfl⟩ := List.mem_map.1 ha
    obtain ⟨hrange, hopens⟩ := List.mem_filter.1 hi
    obtain ⟨k, hk, hleast⟩ := (breaksBefore_eq_true_iff h (List.mem_range.1 hrange)).1
      (of_decide_eq_true hopens)
    exact List.mem_filterMap.2 ⟨k, hk, (find?_positionsFrom_iff (h k hk)).2 hleast⟩
  have hnodup : (((List.range s.components.length).filter s.opens).map
      (fun i : Nat => (i : Int))).Nodup :=
    List.Nodup.map (fun _ _ heq => Int.ofNat.inj heq) (List.nodup_range.filter _)
  have hle := (hnodup.subperm hsubset).length_le
  rw [List.length_map] at hle
  rw [List.countP_eq_length_filter]
  exact Nat.le_trans hle (List.length_filterMap_le _ _)

theorem count_separator_le (h : ∀ k ∈ s.sections, 0 ≤ k) {card : List String}
    (hcard : s.card = .ok card) : card.count separator ≤ s.sections.length := by
  rw [card_eq h] at hcard
  cases hcard
  have hheading : s.heading.count separator = 0 :=
    List.count_eq_zero.2 fun hmem => ne_separator_of_mem_heading hmem rfl
  have hbody : s.body.count separator = (List.range s.components.length).countP s.opens := by
    rw [body, count_separator_flatMap, List.zipIdx_map_snd, List.range_eq_range']
  have hprefix := List.rdropWhile_prefix (fun l : String => decide (l = "")) (s.heading ++ s.body)
  have hle := hprefix.sublist.count_le separator
  rw [List.count_append, hheading, Nat.zero_add, hbody] at hle
  exact Nat.le_trans hle (countP_opens_le h)

/-! ## Sections on a card -/

theorem opens_iff (h : ∀ k ∈ s.sections, 0 ≤ k) {i : Nat} (hi : i < s.components.length) :
    s.opens i = true ↔ s.OpensSection i := by
  rw [opens, decide_eq_true_eq]
  exact breaksBefore_eq_true_iff h hi

private theorem lineOf_of_opensSection (h : ∀ k ∈ s.sections, 0 ≤ k) {i : Nat}
    (hi : s.OpensSection i) : s.lineOf i = s.partStart i + 1 := by
  rw [lineOf, (opens_iff h hi.actionAt.lt_length).2 hi]
  rfl

/-- The separators on a card stand right before the lines of the actions that open
a section. -/
theorem getElem?_card_separator (h : ∀ k ∈ s.sections, 0 ≤ k) {card : List String}
    (hcard : s.card = .ok card) (n : Nat) :
    card[n]? = some separator ↔ ∃ i, s.OpensSection i ∧ n + 1 = s.lineOf i := by
  rw [card_eq h] at hcard
  cases hcard
  rw [Sequence.getElem?_dropEndWhile_iff (by decide), getElem?_separator]
  constructor
  · rintro ⟨i, hi, hopens, rfl⟩
    have hsection : s.OpensSection i := (opens_iff h hi).1 hopens
    exact ⟨i, hsection, (lineOf_of_opensSection h hsection).symm⟩
  · rintro ⟨i, hsection, hline⟩
    have hi := hsection.actionAt.lt_length
    rw [lineOf_of_opensSection h hsection] at hline
    exact ⟨i, hi, (opens_iff h hi).2 hsection, Nat.succ.inj hline⟩

private theorem getElem?_card_lineOf (h : ∀ k ∈ s.sections, 0 ≤ k) {card : List String}
    (hcard : s.card = .ok card) {i : Nat} {c : Component} (hc : s.components[i]? = some c) :
    card[s.lineOf i]? = some (componentLine c) := by
  rw [card_eq h] at hcard
  cases hcard
  rw [Sequence.getElem?_dropEndWhile_iff (by simpa using componentLine_ne_empty c)]
  exact getElem?_lineOf hc

/-- Sections on the card of a screen whose section breaks are not below zero. A
separator belongs before the actions that open a section, and no others; on the
card one stands right before the line of each, and nowhere else. So each is
followed by the line of an action, and there are at most as many as section
breaks. The two painters draw the same lines of the card as rules, and these are
the separators. -/
theorem card_sections (s : Screen) (h : ∀ k ∈ s.sections, 0 ≤ k) :
    (∀ i < s.components.length,
      ∃ breaks, s.breaksBefore i = .ok breaks ∧ (breaks = true ↔ s.OpensSection i)) ∧
    ∃ card, s.card = .ok card ∧
      (∃ line : Nat → Nat, (∀ i j, i < j → j < s.components.length → line i < line j) ∧
        (∀ i c, s.components[i]? = some c → card[line i]? = some (componentLine c)) ∧
        ∀ n, card[n]? = some separator ↔ ∃ i, s.OpensSection i ∧ n + 1 = line i) ∧
      (∀ n, card[n]? = some separator → ∃ name, card[n + 1]? = some ("ACTION: " ++ name)) ∧
      card.count separator ≤ s.sections.length ∧
      ∀ l ∈ card, ∀ (o : TextSheet.Options) (p : ImageSheet.Options) (pen : ImageSheet.Pen)
        (f : Frame) (y : Int),
        (o.boxStyle.isRule l = true ↔ l = separator) ∧
        ((∃ points color width, Mark.line points color width ∈ ImageSheet.lineMarks p pen f y [l]) ↔
          l = separator) := by
  refine ⟨fun i hi => ?_, _, card_eq h, ⟨s.lineOf, fun i j hij hj => lineOf_lt hij hj,
    fun i c hc => getElem?_card_lineOf h (card_eq h) hc, getElem?_card_separator h (card_eq h)⟩,
    fun n hn => ?_, count_separator_le h (card_eq h), fun l hl o p pen f y => ?_⟩
  · obtain ⟨breaks, hbreaks⟩ := breaksBefore_ok h hi
    have hiff := breaksBefore_eq_true_iff h hi
    rw [hbreaks, Except.ok.injEq] at hiff
    exact ⟨breaks, hbreaks, hiff⟩
  · obtain ⟨i, hsection, hline⟩ := (getElem?_card_separator h (card_eq h) n).1 hn
    obtain ⟨c, hc, hkind⟩ := hsection.actionAt
    refine ⟨c.name, ?_⟩
    rw [hline, getElem?_card_lineOf h (card_eq h) hc, componentLine, hkind]
    rfl
  · have hkind := cardLine_of_mem_card (card_eq h) l hl
    exact ⟨hkind.isRule_iff o, exists_rule_iff p pen f y l⟩

/-- A screen with dashes for names, two breaks before one action and one after the
last. -/
def dashed : Screen where
  name := "------------"
  components := [⟨.field, "------------"⟩, ⟨.action, "---"⟩, ⟨.text, ""⟩, ⟨.action, "go"⟩]
  sections := [0, 1, 3, 4]

theorem dashed_sections :
    (∃ breaks, dashed.breaksBefore 1 = .ok breaks ∧ (breaks = true ↔ dashed.OpensSection 1)) ∧
    dashed.card = .ok ["[------------]", "", "FIELD: ------------", separator, "ACTION: ---",
      "TEXT: ", separator, "ACTION: go"] ∧
    ∃ card, dashed.card = .ok card ∧ card.count separator ≤ 4 := by
  obtain ⟨hbreaks, card, hcard, -, -, hcount, -⟩ := card_sections dashed (by decide)
  exact ⟨hbreaks 1 (by decide), by decide, card, hcard, hcount⟩

end Screen

end Storyboard
