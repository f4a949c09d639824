import Storyboard.Proofs.WrittenLines

/-!
# Writing a flow in the notation

A screen is written as its header, its requirements, and then its components
in order. Section breaks and transitions have to be woven in: a break stands
before the component that it counts to, an action that the next transition is
taken on is written together with it, and transitions without a trigger stand
as early as they can. Reading the lines rebuilds all three lists, so every
list of well-formed screens is read back from what is written.

## Main results

* `Notation.write` — the text of some screens.
* `Screen.foldl_add_weave` — what is woven together comes apart again.
* `Screen.WellFormed.foldl_add_items` — the items of a screen rebuild it.
* `Notation.read_write` — screens are read back, and exactly the well-formed
  ones can be read at all.
-/

namespace Storyboard

open Notation

/-! ## Writing -/

/-- A transition without a trigger, as an item. -/
def Transition.item (t : Transition) : Item :=
  if t.condition = "" then .jump t.target else .conditional t.condition t.target

/-- A component as an item, and the transitions left: it takes the first of
them with it if it is the action that this one is taken on. -/
def Component.item (c : Component) : List Transition → Item × List Transition
  | [] => (.component c, [])
  | t :: ts =>
    if c.kind = .action ∧ t.trigger = c.name then (.action c.name t.target, ts)
    else (.component c, t :: ts)

/-- Section breaks as items. -/
def Screen.breaks (sections : List Int) : List Item := sections.map fun _ => .sectionBreak

/-- Components with section breaks and transitions woven in, when `n`
components stand before them. -/
def Screen.weave (n : Int) : List Component → List Int → List Transition → List Item
  | [], sections, ts => breaks sections ++ ts.map (·.item)
  | c :: cs, sections, ts =>
    let placed := c.item (ts.dropWhile (·.trigger = ""))
    breaks (sections.takeWhile (· = n)) ++ (ts.takeWhile (·.trigger = "")).map (·.item) ++
      placed.1 :: weave (n + 1) cs (sections.dropWhile (· = n)) placed.2

/-- A screen as items. -/
def Screen.items (s : Screen) : List Item :=
  s.requirements.toList.map (fun e => .requirement e.1 e.2) ++
    weave 0 s.components s.sections s.transitions

/-- The lines of a screen. -/
def Screen.lines (s : Screen) : List (List Char) :=
  ('[' :: (s.name.toList ++ [']'])) :: s.items.map (·.write)

/-- The text of some screens, a line feed behind each line. -/
def Notation.write (screens : List Screen) : String :=
  String.ofList ((screens.flatMap (·.lines)).flatMap (· ++ ['\n']))

/-! ## The items of a screen -/

theorem Transition.WellFormed.item {t : Transition} (h : t.WellFormed) : t.item.WellFormed := by
  unfold Transition.item
  split
  · exact ⟨h.target_ne, h.target_clean, clean_empty, clean_empty, Or.inl rfl, not_infix_empty,
      fun hne => absurd rfl hne⟩
  · rename_i hcondition
    exact ⟨hcondition, h.target_ne, h.target_clean, clean_empty, h.condition_clean, Or.inl rfl,
      not_infix_empty, h.endFree⟩

/-- A component stands alone, or it is the action that the first transition is
taken on and takes it with it. -/
theorem Component.item_cases (c : Component) (ts : List Transition) :
    (c.item ts = (.component c, ts) ∧
        ∀ t ∈ ts.head?, c.kind = .action → t.trigger ≠ c.name) ∨
      ∃ t rest, ts = t :: rest ∧ c.kind = .action ∧ t.trigger = c.name ∧
        c.item ts = (.action c.name t.target, rest) := by
  cases ts with
  | nil => exact Or.inl ⟨rfl, by simp⟩
  | cons t rest =>
      by_cases htaken : c.kind = .action ∧ t.trigger = c.name
      · refine Or.inr ⟨t, rest, rfl, htaken.1, htaken.2, ?_⟩
        rw [Component.item, if_pos htaken]
      · refine Or.inl ⟨by rw [Component.item, if_neg htaken], ?_⟩
        intro u hu haction hname
        cases hu
        exact htaken ⟨haction, hname⟩

theorem Component.WellFormed.item {c : Component} (h : c.WellFormed) {ts : List Transition}
    (hts : ∀ t ∈ ts, t.WellFormed) :
    (c.item ts).1.WellFormed ∧ ∀ t ∈ (c.item ts).2, t.WellFormed := by
  obtain ⟨hitem, -⟩ | ⟨t, rest, rfl, haction, hname, hitem⟩ := c.item_cases ts
  · rw [hitem]
    exact ⟨h, hts⟩
  · have ht := hts t (by simp)
    have hfree := h.arrowFree haction
    rw [hitem]
    exact ⟨⟨⟨h.name_ne, h.name_clean, fun _ => hfree⟩, ht.target_ne, ht.target_clean,
      h.name_clean, clean_empty, Or.inr rfl, hfree, fun hne => absurd rfl hne⟩,
      fun u hu => hts u (by simp [hu])⟩

namespace Screen

private theorem wellFormed_of_mem_breaks {sections : List Int} :
    ∀ item ∈ breaks sections, item.WellFormed := by
  intro item hitem
  obtain ⟨k, -, rfl⟩ := List.mem_map.1 hitem
  trivial

private theorem wellFormed_of_mem_free {ts : List Transition} (h : ∀ t ∈ ts, t.WellFormed) :
    ∀ item ∈ ts.map (·.item), item.WellFormed := by
  intro item hitem
  obtain ⟨t, ht, rfl⟩ := List.mem_map.1 hitem
  exact (h t ht).item

private theorem wellFormed_of_mem_weave :
    ∀ (cs : List Component) (n : Int) (sections : List Int) (ts : List Transition),
      (∀ c ∈ cs, c.WellFormed) → (∀ t ∈ ts, t.WellFormed) →
        ∀ item ∈ weave n cs sections ts, item.WellFormed := by
  intro cs
  induction cs with
  | nil =>
      intro n sections ts _ hts item hitem
      rcases List.mem_append.1 hitem with hitem | hitem
      · exact wellFormed_of_mem_breaks item hitem
      · exact wellFormed_of_mem_free hts item hitem
  | cons c cs ih =>
      intro n sections ts hcs hts item hitem
      have hfree : ∀ t ∈ ts.takeWhile (·.trigger = ""), t.WellFormed := fun t ht =>
        hts t ((List.takeWhile_prefix _).subset ht)
      have hrest : ∀ t ∈ ts.dropWhile (·.trigger = ""), t.WellFormed := fun t ht =>
        hts t ((List.dropWhile_suffix _).subset ht)
      obtain ⟨hfirst, hleft⟩ := (hcs c (by simp)).item hrest
      rcases List.mem_append.1 hitem with hitem | hitem
      · rcases List.mem_append.1 hitem with hitem | hitem
        · exact wellFormed_of_mem_breaks item hitem
        · exact wellFormed_of_mem_free hfree item hitem
      · rcases List.mem_cons.1 hitem with rfl | hitem
        · exact hfirst
        · exact ih _ _ _ (fun d hd => hcs d (by simp [hd])) hleft item hitem

theorem WellFormed.items {s : Screen} (h : s.WellFormed) :
    ∀ item ∈ s.items, item.WellFormed := by
  intro item hitem
  rcases List.mem_append.1 hitem with hitem | hitem
  · obtain ⟨e, he, rfl⟩ := List.mem_map.1 hitem
    exact h.requirements e he
  · exact wellFormed_of_mem_weave _ _ _ _ h.components h.transitions item hitem

/-! ### Rebuilding the screen -/

/-- The screen with more components, transitions and section breaks. -/
def extend (s : Screen) (cs : List Component) (ts : List Transition) (sections : List Int) :
    Screen :=
  { s with
    components := s.components ++ cs
    transitions := s.transitions ++ ts
    sections := s.sections ++ sections }

theorem extend_nil (s : Screen) : s.extend [] [] [] = s := by
  simp [extend]

theorem extend_extend (s : Screen) (cs cs' : List Component) (ts ts' : List Transition)
    (ks ks' : List Int) :
    (s.extend cs ts ks).extend cs' ts' ks' = s.extend (cs ++ cs') (ts ++ ts') (ks ++ ks') := by
  simp [extend]

private theorem foldl_add_breaks :
    ∀ (sections : List Int) (s : Screen), (∀ k ∈ sections, k = s.components.length) →
      (breaks sections).foldl add s = s.extend [] [] sections := by
  intro sections
  induction sections with
  | nil =>
      intro s _
      exact s.extend_nil.symm
  | cons k rest ih =>
      intro s hcount
      have hk : (s.components.length : Int) = k := (hcount k (by simp)).symm
      have hfirst : s.add .sectionBreak = s.extend [] [] [k] := by
        simp [add, extend, hk]
      have hrest := ih (s.add .sectionBreak) fun j hj => hcount j (by simp [hj])
      show (breaks rest).foldl add (s.add .sectionBreak) = _
      rw [hrest, hfirst, extend_extend]
      rfl

private theorem foldl_add_free :
    ∀ (ts : List Transition) (s : Screen), (∀ t ∈ ts, t.trigger = "") →
      (ts.map (·.item)).foldl add s = s.extend [] ts [] := by
  intro ts
  induction ts with
  | nil =>
      intro s _
      exact s.extend_nil.symm
  | cons t rest ih =>
      intro s hfree
      have hfirst : s.add t.item = s.extend [] [t] [] := by
        obtain ⟨target, trigger, condition⟩ := t
        have htrigger : trigger = "" := hfree ⟨target, trigger, condition⟩ (by simp)
        unfold Transition.item
        split
        · rename_i hcondition
          simp [add, extend, htrigger, show condition = "" from hcondition]
        · simp [add, extend, htrigger]
      rw [List.map_cons, List.foldl_cons, hfirst, ih _ fun u hu => hfree u (by simp [hu]),
        extend_extend]
      rfl

/-- Adding a component's item adds the component and the transitions that it
takes with it. -/
theorem add_component_item {c : Component} (hc : c.WellFormed) {ts : List Transition}
    (hts : ∀ t ∈ ts, t.WellFormed) :
    ∃ taken, taken ++ (c.item ts).2 = ts ∧
      ∀ s : Screen, s.add (c.item ts).1 = s.extend [c] taken [] := by
  obtain ⟨hitem, -⟩ | ⟨t, rest, rfl, haction, hname, hitem⟩ := c.item_cases ts
  · rw [hitem]
    exact ⟨[], rfl, fun s => by simp [add, extend]⟩
  · have hnone : t.condition = "" := (hts t (by simp)).exclusive.resolve_left fun hempty =>
      hc.name_ne (hname.symm.trans hempty)
    rw [hitem]
    refine ⟨[t], rfl, fun s => ?_⟩
    obtain ⟨target, trigger, condition⟩ := t
    obtain ⟨kind, name⟩ := c
    rw [show trigger = name from hname, show condition = "" from hnone,
      show kind = .action from haction]
    simp [add, extend]

private theorem actionNames_cons (c : Component) (cs : List Component) : actionNames (c :: cs) =
    if c.kind = .action then c.name :: actionNames cs else actionNames cs := by
  unfold actionNames
  by_cases haction : c.kind = .action <;> simp [haction]

private theorem triggers_cons {t : Transition} (ht : t.trigger ≠ "") (ts : List Transition) :
    triggers (t :: ts) = t.trigger :: triggers ts := by
  simp [triggers, ht]

/-- If the first transition left has a trigger, the triggers that a component
leaves are among the actions after it. -/
theorem triggers_item_sublist {c : Component} {cs : List Component} {ts : List Transition}
    (hfirst : ∀ t ∈ ts.head?, t.trigger ≠ "")
    (h : (triggers ts).Sublist (actionNames (c :: cs))) :
    (triggers (c.item ts).2).Sublist (actionNames cs) := by
  rw [actionNames_cons] at h
  obtain ⟨hitem, hother⟩ | ⟨t, rest, rfl, haction, hname, hitem⟩ := c.item_cases ts
  · rw [hitem]
    by_cases haction : c.kind = .action
    · rw [if_pos haction] at h
      cases ts with
      | nil => exact List.nil_sublist _
      | cons t rest =>
          rw [triggers_cons (hfirst t rfl)] at h ⊢
          rcases List.cons_sublist_cons'.1 h with hlater | ⟨hname, -⟩
          · exact hlater
          · exact absurd hname (hother t rfl haction)
    · rwa [if_neg haction] at h
  · rw [if_pos haction, triggers_cons (hfirst t rfl), hname] at h
    rw [hitem]
    exact List.cons_sublist_cons.1 h

private theorem triggers_free {ts : List Transition} (h : ∀ t ∈ ts, t.trigger = "") :
    triggers ts = [] := by
  rw [triggers, List.map_eq_nil_iff, List.filter_eq_nil_iff]
  intro t ht
  simp [h t ht]

private theorem free_of_triggers {ts : List Transition} (h : triggers ts = []) :
    ∀ t ∈ ts, t.trigger = "" := by
  intro t ht
  rw [triggers, List.map_eq_nil_iff, List.filter_eq_nil_iff] at h
  simpa using h t ht

private theorem lt_of_mem_dropWhile {sections : List Int} (hsorted : sections.Pairwise (· ≤ ·))
    {n : Int} (hlow : ∀ k ∈ sections, n ≤ k) :
    ∀ k ∈ sections.dropWhile (· = n), n < k := by
  induction sections with
  | nil => simp
  | cons k rest ih =>
      obtain ⟨hfirst, hrest⟩ := List.pairwise_cons.1 hsorted
      by_cases hk : k = n
      · rw [List.dropWhile_cons_of_pos (by simp [hk])]
        exact ih hrest fun j hj => hlow j (by simp [hj])
      · rw [List.dropWhile_cons_of_neg (by simp [hk])]
        have hle : n ≤ k := hlow k (by simp)
        intro j hj
        rcases List.mem_cons.1 hj with rfl | hj
        · omega
        · have hkj := hfirst j hj
          omega

/-- Section breaks in order are those that count to `n` and those after. -/
theorem exists_split_sections {sections : List Int} (hsorted : sections.Pairwise (· ≤ ·)) {n : Int}
    (hlow : ∀ k ∈ sections, n ≤ k) :
    ∃ now later, sections.takeWhile (· = n) = now ∧ sections.dropWhile (· = n) = later ∧
      now ++ later = sections ∧ (∀ k ∈ now, k = n) ∧ later.Pairwise (· ≤ ·) ∧
        ∀ k ∈ later, n < k := by
  refine ⟨_, _, rfl, rfl, List.takeWhile_append_dropWhile, ?_, ?_, lt_of_mem_dropWhile hsorted hlow⟩
  · intro k hk
    simpa using List.mem_takeWhile_imp hk
  · exact hsorted.sublist (List.dropWhile_sublist _)

/-- Transitions are those up to the first with a trigger, and the rest. -/
theorem exists_split_transitions (ts : List Transition) :
    ∃ free rest, ts.takeWhile (·.trigger = "") = free ∧ ts.dropWhile (·.trigger = "") = rest ∧
      free ++ rest = ts ∧ (∀ t ∈ free, t.trigger = "") ∧ ∀ t ∈ rest.head?, t.trigger ≠ "" := by
  refine ⟨_, _, rfl, rfl, List.takeWhile_append_dropWhile, ?_, ?_⟩
  · intro t ht
    simpa using List.mem_takeWhile_imp ht
  · intro t ht
    have hnot := List.head?_dropWhile_not (fun t : Transition => decide (t.trigger = "")) ts
    rw [ht] at hnot
    simpa using hnot

/-- The items woven from components, section breaks and transitions add all
three to a screen. -/
theorem foldl_add_weave :
    ∀ (cs : List Component) (s : Screen) (sections : List Int) (ts : List Transition),
      (∀ c ∈ cs, c.WellFormed) → (∀ t ∈ ts, t.WellFormed) →
        (triggers ts).Sublist (actionNames cs) → sections.Pairwise (· ≤ ·) →
          (∀ k ∈ sections, (s.components.length : Int) ≤ k ∧
            k ≤ (s.components.length : Int) + cs.length) →
          (weave s.components.length cs sections ts).foldl add s = s.extend cs ts sections := by
  intro cs
  induction cs with
  | nil =>
      intro s sections ts _ _ htriggers _ hrange
      have hcount : ∀ k ∈ sections, k = s.components.length := by
        intro k hk
        have hk' := hrange k hk
        rw [List.length_nil] at hk'
        omega
      have hfree := free_of_triggers (List.sublist_nil.1 htriggers)
      rw [weave, List.foldl_append, foldl_add_breaks sections s hcount,
        foldl_add_free ts _ hfree, extend_extend, List.nil_append, List.nil_append,
        List.append_nil]
  | cons c cs ih =>
      intro s sections ts hcs hts htriggers hsorted hrange
      have hc := hcs c (by simp)
      obtain ⟨now, later, hnow, hlater, hsections, hcount, hsorted', hlow⟩ :=
        exists_split_sections hsorted fun k hk => (hrange k hk).1
      obtain ⟨free, rest, hfree, hrest, hsplit, huntaken, hfirst⟩ := exists_split_transitions ts
      have hleft : (triggers rest).Sublist (actionNames (c :: cs)) := by
        rwa [← hsplit, triggers_append, triggers_free huntaken, List.nil_append] at htriggers
      have hrest_wf : ∀ t ∈ rest, t.WellFormed := by
        intro t ht
        apply hts
        rw [← hsplit]
        exact List.mem_append_right free ht
      obtain ⟨taken, htaken, hadd⟩ := add_component_item hc hrest_wf
      have hlength : ((s.extend [c] (free ++ taken) now).components.length : Int) =
          s.components.length + 1 := by
        simp [extend]
      have hind := ih (s.extend [c] (free ++ taken) now) later (c.item rest).2
        (fun d hd => hcs d (by simp [hd])) (hc.item hrest_wf).2
        (triggers_item_sublist hfirst hleft) hsorted' (by
          intro k hk
          have hmore := hlow k hk
          have hless := (hrange k (by rw [← hsections]; exact List.mem_append_right now hk)).2
          rw [List.length_cons] at hless
          omega)
      rw [hlength] at hind
      rw [weave, hnow, hlater, hfree, hrest, List.foldl_append, List.foldl_append,
        foldl_add_breaks now s hcount, foldl_add_free free _ huntaken, List.foldl_cons, hadd,
        extend_extend, extend_extend]
      simp only [List.nil_append, List.append_nil]
      rw [hind, extend_extend, List.append_assoc, htaken, hsplit, hsections]
      rfl

/-! ### The requirements -/

theorem foldl_add_requirements :
    ∀ (entries : List (Category × String)) (s : Screen),
      (entries.map fun e => Item.requirement e.1 e.2).foldl add s =
        { s with
          requirements := entries.foldl (fun r e => r.set e.1 e.2) s.requirements } := by
  intro entries
  induction entries with
  | nil =>
      intro s
      rfl
  | cons e rest ih =>
      intro s
      rw [List.map_cons, List.foldl_cons, ih]
      rfl

end Screen

theorem Requirements.ofList_toList (r : Requirements) : ofList r.toList = r := by
  obtain ⟨performance, security, availability, usability⟩ := r
  cases performance <;> cases security <;> cases availability <;> cases usability <;> rfl

/-- The items of a well-formed screen rebuild it from its name. -/
theorem Screen.WellFormed.foldl_add_items {s : Screen} (h : s.WellFormed) :
    s.items.foldl Screen.add { name := s.name } = s := by
  have hrequirements : s.requirements.toList.foldl (fun r e => r.set e.1 e.2) {} =
      s.requirements := s.requirements.ofList_toList
  have hweave := Screen.foldl_add_weave s.components
    { name := s.name, requirements := s.requirements } s.sections s.transitions
    h.components h.transitions h.triggers_sublist h.sections_sorted (by
      intro k hk
      have hrange := h.sections_range k hk
      simpa using hrange)
  rw [Screen.items, List.foldl_append, Screen.foldl_add_requirements, hrequirements]
  exact hweave

/-! ## Screens read back -/

namespace Notation

/-- The lines of a screen close the one before it and open the screen that its
items build. -/
theorem readLines_screen {s : Screen} (hne : s.name ≠ "") (hclean : Text.Clean s.name)
    (hitems : ∀ item ∈ s.items, item.WellFormed) (current : Option Screen) (number : Nat)
    (rest : List (List Char)) :
    ∃ number', readLines current number (s.lines ++ rest) =
      (current.toList ++
          (readLines (some (s.items.foldl Screen.add { name := s.name })) number' rest).1,
        (readLines (some (s.items.foldl Screen.add { name := s.name })) number' rest).2) := by
  refine ⟨number + 1 + s.items.length, ?_⟩
  have hread := read_header_line hne hclean
  have hline : Text.trim ('[' :: (s.name.toList ++ [']'])) ≠ [] := by
    intro hnil
    rw [hnil] at hread
    cases hread
  rw [Screen.lines, List.cons_append, readLines]
  dsimp only
  rw [if_neg hline, hread, step, readLines_items hitems]
  rfl

/-- The lines of well-formed screens are read as those screens, after the one
that was open. -/
theorem readLines_screens :
    ∀ (screens : List Screen) (current : Option Screen) (number : Nat),
      (∀ s ∈ screens, s.WellFormed) →
        readLines current number (screens.flatMap (·.lines)) = (current.toList ++ screens, []) := by
  intro screens
  induction screens with
  | nil =>
      intro current number _
      rw [List.append_nil]
      rfl
  | cons s rest ih =>
      intro current number h
      have hs := h s (by simp)
      obtain ⟨number', hread⟩ := readLines_screen hs.name_ne hs.name_clean hs.items current number
        (rest.flatMap (·.lines))
      rw [List.flatMap_cons, hread, hs.foldl_add_items,
        ih (some s) number' fun r hr => h r (by simp [hr])]
      rfl

private theorem lines_flatMap_newline {ls : List (List Char)}
    (h : ∀ l ∈ ls, ∀ c ∈ l, Text.isBreak c = false) :
    Text.lines (ls.flatMap (· ++ ['\n'])) = ls := by
  induction ls with
  | nil => rfl
  | cons l ls ih =>
      rw [List.flatMap_cons, List.append_assoc, List.singleton_append,
        Text.lines_append_newline (h l (by simp)), ih fun k hk => h k (by simp [hk])]

private theorem not_isBreak_of_mem_lines {s : Screen} (h : s.WellFormed) :
    ∀ l ∈ s.lines, ∀ c ∈ l, Text.isBreak c = false := by
  intro l hl
  rcases List.mem_cons.1 hl with rfl | hl
  · simp only [List.forall_mem_cons, List.forall_mem_append]
    exact ⟨by decide, h.name_clean.oneLine, by decide, by simp⟩
  · obtain ⟨item, hitem, rfl⟩ := List.mem_map.1 hl
    exact Item.not_isBreak_write (h.items item hitem)

/-- Well-formed screens are read back from their text. -/
theorem read_of_wellFormed {screens : List Screen} (h : ∀ s ∈ screens, s.WellFormed) :
    read (write screens) = ⟨⟨screens⟩, []⟩ := by
  have hlines : Text.lines (write screens).toList = screens.flatMap (·.lines) := by
    rw [write, String.toList_ofList]
    apply lines_flatMap_newline
    intro l hl
    obtain ⟨s, hs, hmem⟩ := List.mem_flatMap.1 hl
    exact not_isBreak_of_mem_lines (h s hs) l hmem
  rw [read, hlines, readLines_screens screens none 1 h]
  rfl

/-- Every list of well-formed screens is read back from its text with nothing
skipped, and no other list of screens is read from any text. -/
theorem read_write (screens : List Screen) :
    ((∀ s ∈ screens, s.WellFormed) → read (write screens) = ⟨⟨screens⟩, []⟩) ∧
      ((∃ text, (read text).flow.screens = screens) ↔ ∀ s ∈ screens, s.WellFormed) := by
  refine ⟨read_of_wellFormed, ?_, fun h => ⟨write screens, by rw [read_of_wellFormed h]⟩⟩
  rintro ⟨text, rfl⟩
  exact readLines_wellFormed _ none 1 Text.isBreak_of_mem_lines (by simp)

/-- Screens whose texts look like other lines, with breaks at both ends, an
action that leads nowhere before one of the same name, and marks inside a
condition. -/
def lookalikes : List Screen :=
  [{ name := "[=> --]"
     components := [⟨.text, "A => B"⟩, ⟨.action, "Go"⟩, ⟨.action, "Stay"⟩, ⟨.action, "Go"⟩]
     requirements := { performance := some "", usability := some "S: // x" }
     transitions := [⟨"\x7ba\x7d=> b", "", ""⟩, ⟨"=> Home", "Stay", ""⟩, ⟨"c", "", "x\x7d=> \x7by"⟩,
       ⟨"[d]", "Go", ""⟩, ⟨"e", "", ""⟩]
     sections := [0, 0, 2, 4] },
   { name := "//" }]

theorem lookalikes_read_back :
    (∀ s ∈ lookalikes, s.WellFormed) ∧ read (write lookalikes) = ⟨⟨lookalikes⟩, []⟩ := by
  have h : ∀ s ∈ lookalikes, s.WellFormed := by decide
  exact ⟨h, (read_write lookalikes).1 h⟩

end Notation

end Storyboard
