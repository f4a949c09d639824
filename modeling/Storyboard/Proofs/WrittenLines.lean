import Storyboard.Proofs.WellFormed

/-!
# Lines that are written and read back

Every item has a line of its own. The parts of the line are clean, so they
come out of trimming as they went in, and none of them has the mark at which
the line is cut; so by the grammar the line adds the item it was written for.

## Main results

* `Notation.Item.write` — the line of an item.
* `Notation.Item.adds` — the line of an item adds that item.
* `Notation.readLines_items` — lines of items add them to the open screen.
-/

namespace Storyboard

open Notation

/-- The line of an item. -/
def Notation.Item.write : Item → List Char
  | .sectionBreak => ['-', '-']
  | .action label target =>
    'A' :: ' ' :: (label.toList ++ ' ' :: (arrow ++ ' ' :: target.toList))
  | .conditional condition target =>
    '=' :: '{' :: (condition.toList ++ (conditionEnd ++ ' ' :: target.toList))
  | .jump target => '=' :: '>' :: ' ' :: target.toList
  | .component c => c.kind.letter :: ' ' :: c.name.toList
  | .requirement category text => '/' :: '/' :: ' ' :: category.code :: ':' :: ' ' :: text.toList

/-! ## Trimming what was put together -/

namespace Text

theorem Clean.trim_cons {s : String} (h : Clean s) : trim (' ' :: s.toList) = s.toList := by
  have hdrop : trim (' ' :: s.toList) = trim s.toList := rfl
  rw [hdrop, h.trimmed]

private theorem Clean.trim_concat {s : String} (h : Clean s) :
    trim (s.toList ++ [' ']) = s.toList := by
  cases hs : s.toList with
  | nil => rfl
  | cons c cs =>
      have hfirst : isBlank c = false := h.trimmed.head c (by rw [hs]; rfl)
      have hstart : trimStart (c :: cs ++ [' ']) = c :: cs ++ [' '] :=
        List.dropWhile_cons_of_neg (by simp [hfirst])
      have hstart' : trimStart (c :: cs) = c :: cs :=
        List.dropWhile_cons_of_neg (by simp [hfirst])
      have htrim : trimEnd (trimStart (c :: cs)) = c :: cs := hs ▸ h.trimmed
      rw [hstart'] at htrim
      rw [trim, hstart, trimEnd_eq, List.rdropWhile_concat_pos _ _ _ (by decide), ← trimEnd_eq,
        htrim]

theorem trim_ne_nil {piece : List Char} {s : String} (h : trim piece = s.toList) (hne : s ≠ "") :
    trim piece ≠ [] := by
  rw [h]
  exact mt String.toList_eq_nil_iff.1 hne

/-- A line that begins with no blank and ends with a clean text is trimmed. -/
theorem Clean.trim_line {s : String} (h : Clean s) (hne : s ≠ "") {c : Char}
    (hc : isBlank c = false) (middle : List Char) :
    trim (c :: (middle ++ s.toList)) = c :: (middle ++ s.toList) := by
  have hne' : s.toList ≠ [] := mt String.toList_eq_nil_iff.1 hne
  apply trim_eq_self
  · intro d hd
    cases hd
    exact hc
  · intro d hd
    apply h.trimmed.getLast
    rw [← List.cons_append, List.getLast?_append_of_ne_nil _ hne'] at hd
    exact hd

end Text

/-! ## Reading one line -/

namespace Notation

/-- The line of an item that can be written adds that item. -/
theorem Item.adds {item : Item} (h : item.WellFormed) : Adds (Text.trim item.write) item := by
  cases item with
  | sectionBreak => exact .sectionBreak
  | action label target =>
      obtain ⟨hcomponent, htransition⟩ := h
      have htrim : Text.trim (Item.action label target).write =
          'A' :: ' ' :: ((label.toList ++ [' ']) ++ (arrow ++ ' ' :: target.toList)) := by
        have hline := htransition.target_clean.trim_line htransition.target_ne
          (show Text.isBlank 'A' = false by decide)
          (' ' :: (label.toList ++ ' ' :: (arrow ++ [' '])))
        simpa [write] using hline
      have hfree : ¬arrow <:+: label.toList ++ [' '] :=
        Text.not_infix_concat (hcomponent.arrowFree rfl) (by decide)
      have hlabel := hcomponent.name_clean.trim_concat
      have htarget := htransition.target_clean.trim_cons
      have hadds := Adds.action hfree (Text.trim_ne_nil hlabel hcomponent.name_ne)
        (Text.trim_ne_nil htarget htransition.target_ne)
      rwa [hlabel, htarget, String.ofList_toList, String.ofList_toList, ← htrim] at hadds
  | conditional condition target =>
      obtain ⟨hcondition, htransition⟩ := h
      have htrim : Text.trim (Item.conditional condition target).write =
          '=' :: '{' :: (condition.toList ++ (conditionEnd ++ ' ' :: target.toList)) := by
        have hline := htransition.target_clean.trim_line htransition.target_ne
          (show Text.isBlank '=' = false by decide)
          ('{' :: (condition.toList ++ (conditionEnd ++ [' '])))
        simpa [write] using hline
      have hfree : ¬conditionEnd <:+: ' ' :: target.toList := by
        rw [List.infix_cons_iff, not_or]
        exact ⟨by simp [conditionEnd], htransition.endFree hcondition⟩
      have htext : Text.trim condition.toList = condition.toList :=
        htransition.condition_clean.trimmed
      have htarget := htransition.target_clean.trim_cons
      have hadds := Adds.conditional hfree (Text.trim_ne_nil htext hcondition)
        (Text.trim_ne_nil htarget htransition.target_ne)
      rwa [htext, htarget, String.ofList_toList, String.ofList_toList, ← htrim] at hadds
  | jump target =>
      have htransition : Transition.WellFormed ⟨target, "", ""⟩ := h
      have htrim : Text.trim (Item.jump target).write = arrow ++ ' ' :: target.toList :=
        htransition.target_clean.trim_line htransition.target_ne
          (show Text.isBlank '=' = false by decide) ['>', ' ']
      have htarget := htransition.target_clean.trim_cons
      have hadds := Adds.jump (Text.trim_ne_nil htarget htransition.target_ne)
      rwa [htarget, String.ofList_toList, ← htrim] at hadds
  | component c =>
      obtain ⟨kind, name⟩ := c
      have hcomponent : Component.WellFormed ⟨kind, name⟩ := h
      have hblank : Text.isBlank kind.letter = false := by
        cases kind <;> decide
      have htrim : Text.trim (Item.component ⟨kind, name⟩).write =
          kind.letter :: ' ' :: name.toList :=
        hcomponent.name_clean.trim_line hcomponent.name_ne hblank [' ']
      have hname : Text.trim name.toList = name.toList := hcomponent.name_clean.trimmed
      have hadds := Adds.component (mt String.toList_eq_nil_iff.1 hcomponent.name_ne)
        hcomponent.arrowFree
      rwa [hname, String.ofList_toList, ← htrim] at hadds
  | requirement category text =>
      have hclean : Text.Clean text := h
      have hcolon : ':' ∉ [' ', category.code] := by
        cases category <;> decide
      have hcode : Text.trim [' ', category.code] = [category.code] := by
        cases category <;> rfl
      by_cases hne : text = ""
      · -- The blank behind the colon is trimmed away with nothing after it.
        have htrim : Text.trim (Item.requirement category "").write =
            '/' :: '/' :: ([' ', category.code] ++ ':' :: []) := by
          cases category <;> rfl
        rw [hne, htrim]
        exact .requirement hcolon hcode
      · have htrim : Text.trim (Item.requirement category text).write =
            '/' :: '/' :: ([' ', category.code] ++ ':' :: (' ' :: text.toList)) :=
          hclean.trim_line hne (show Text.isBlank '/' = false by decide)
            ['/', ' ', category.code, ':', ' ']
        have hadds := @Adds.requirement category _ (' ' :: text.toList) hcolon hcode
        rwa [hclean.trim_cons, String.ofList_toList, ← htrim] at hadds

theorem read_header_line {name : String} (hne : name ≠ "") (h : Text.Clean name) :
    Line.read (Text.trim ('[' :: (name.toList ++ [']']))) = .header name := by
  have htrim : Text.trim ('[' :: (name.toList ++ [']'])) = '[' :: (name.toList ++ [']']) := by
    apply Text.trim_eq_self
    · intro c hc
      cases hc
      decide
    · intro c hc
      rw [← List.cons_append, List.getLast?_concat] at hc
      cases hc
      decide
  have hname : Text.trim name.toList = name.toList := h.trimmed
  rw [htrim, read_eq_header_iff]
  refine ⟨name.toList, rfl, Text.trim_ne_nil hname hne, ?_⟩
  rw [hname, String.ofList_toList]

/-! ## Reading lines -/

theorem not_isBreak_of_all {cs : List Char} (h : cs.all (fun c => !Text.isBreak c) = true) :
    ∀ c ∈ cs, Text.isBreak c = false := by
  simpa using h

theorem Item.not_isBreak_write {item : Item} (h : item.WellFormed) :
    ∀ c ∈ item.write, Text.isBreak c = false := by
  cases item with
  | sectionBreak => exact not_isBreak_of_all rfl
  | action label target =>
      simp only [write, List.forall_mem_cons, List.forall_mem_append]
      exact ⟨by decide, by decide, h.1.name_clean.oneLine, by decide,
        not_isBreak_of_all rfl, by decide, h.2.target_clean.oneLine⟩
  | conditional condition target =>
      simp only [write, List.forall_mem_cons, List.forall_mem_append]
      exact ⟨by decide, by decide, h.2.condition_clean.oneLine, not_isBreak_of_all rfl,
        by decide, h.2.target_clean.oneLine⟩
  | jump target =>
      have htransition : Transition.WellFormed ⟨target, "", ""⟩ := h
      simp only [write, List.forall_mem_cons]
      exact ⟨by decide, by decide, by decide, htransition.target_clean.oneLine⟩
  | component c =>
      have hcomponent : c.WellFormed := h
      have hletter : Text.isBreak c.kind.letter = false := by
        cases c.kind <;> decide
      simp only [write, List.forall_mem_cons]
      exact ⟨hletter, by decide, hcomponent.name_clean.oneLine⟩
  | requirement category text =>
      have htext : Text.Clean text := h
      have hcode : Text.isBreak category.code = false := by
        cases category <;> decide
      simp only [write, List.forall_mem_cons]
      exact ⟨by decide, by decide, by decide, hcode, by decide, by decide, htext.oneLine⟩

/-- Lines of items add them to the open screen, one after the other. -/
theorem readLines_items {items : List Item} (h : ∀ item ∈ items, item.WellFormed) :
    ∀ (s : Screen) (number : Nat) (rest : List (List Char)),
      readLines (some s) number (items.map (·.write) ++ rest) =
        readLines (some (items.foldl Screen.add s)) (number + items.length) rest := by
  induction items with
  | nil =>
      intro s number rest
      rfl
  | cons item items ih =>
      intro s number rest
      obtain ⟨form, hread⟩ := (Item.adds (h item (by simp))).exists_read
      have hne : Text.trim item.write ≠ [] := by
        intro hnil
        rw [hnil] at hread
        cases hread
      have hrest := ih (fun i hi => h i (by simp [hi])) (s.add item) (number + 1) rest
      rw [List.map_cons, List.cons_append, readLines]
      dsimp only
      rw [if_neg hne, hread, step, hrest, List.foldl_cons, List.length_cons,
        show number + 1 + items.length = number + (items.length + 1) by omega]
      rfl

end Notation

end Storyboard
