import Mathlib.Data.List.DropRight
import Mathlib.Data.List.Infix
import Storyboard.Text.Blank

/-!
# Trimmed texts

Trimming takes blanks from both ends of a text and nothing else, so a trimmed
text is a piece of the text it comes from and everything that a piece inherits
holds of it: it has no line break and contains no mark that the text did not.

## Main results

* `Text.Trimmed` — texts that have no blank at either end.
* `Text.trim_infix`, `Text.trim_trimmed` — what trimming gives.
* `Text.trim_eq_self`, `Text.trim_eq_nil_iff` — when it takes nothing, and
  when it takes all.
-/

namespace Storyboard.Text

/-- Whether a text has no blank at either end. -/
def Trimmed (cs : List Char) : Prop := trim cs = cs

instance (cs : List Char) : Decidable (Trimmed cs) := inferInstanceAs (Decidable (trim cs = cs))

theorem trimEnd_eq (cs : List Char) : trimEnd cs = cs.rdropWhile isBlank := rfl

/-- Trimming leaves a piece of the text. -/
theorem trim_infix (cs : List Char) : trim cs <:+: cs :=
  (List.rdropWhile_prefix isBlank _).isInfix.trans (List.dropWhile_suffix isBlank).isInfix

theorem trim_eq_nil_iff {cs : List Char} : trim cs = [] ↔ ∀ c ∈ cs, isBlank c = true := by
  rw [trim, trimEnd_eq, List.rdropWhile_eq_nil_iff, trimStart]
  constructor
  · intro h
    have hdrop : cs.dropWhile isBlank = [] := by
      by_contra hne
      have hnot := List.head_dropWhile_not isBlank hne
      rw [h _ (List.head_mem hne)] at hnot
      cases hnot
    exact List.dropWhile_eq_nil_iff.1 hdrop
  · intro h
    rw [List.dropWhile_eq_nil_iff.2 h]
    simp

/-- A text that begins and ends with other characters than blanks is trimmed
already. -/
theorem trim_eq_self {cs : List Char} (hfirst : ∀ c ∈ cs.head?, isBlank c = false)
    (hlast : ∀ c ∈ cs.getLast?, isBlank c = false) : trim cs = cs := by
  have hstart : trimStart cs = cs := by
    cases cs with
    | nil => rfl
    | cons c cs => exact List.dropWhile_cons_of_neg (by simp [hfirst c (by simp)])
  rw [trim, hstart, trimEnd_eq, List.rdropWhile_eq_self_iff]
  intro hne
  rw [hlast _ (by rw [List.getLast?_eq_some_getLast hne]; rfl)]
  simp

/-- A text that has been trimmed begins with no blank. -/
theorem head_trim {cs : List Char} : ∀ c ∈ (trim cs).head?, isBlank c = false := by
  intro c hc
  have hprefix : trim cs <+: trimStart cs := List.rdropWhile_prefix isBlank _
  obtain ⟨tail, htail⟩ := hprefix
  have hhead : (cs.dropWhile isBlank).head? = some c := by
    show (trimStart cs).head? = some c
    rw [← htail, List.head?_append, hc]
    rfl
  have hne : cs.dropWhile isBlank ≠ [] := by
    intro hnil
    rw [hnil] at hhead
    cases hhead
  have hnot := List.head_dropWhile_not isBlank hne
  rw [List.head?_eq_some_head hne] at hhead
  rw [Option.some.inj hhead] at hnot
  simpa using hnot

/-- A text that has been trimmed ends with no blank. -/
theorem getLast_trim {cs : List Char} : ∀ c ∈ (trim cs).getLast?, isBlank c = false := by
  intro c hc
  have hne : (trimStart cs).rdropWhile isBlank ≠ [] := by
    intro hnil
    rw [trim, trimEnd_eq, hnil] at hc
    cases hc
  have hnot := List.rdropWhile_last_not isBlank (trimStart cs) hne
  rw [trim, trimEnd_eq, List.getLast?_eq_some_getLast hne] at hc
  rw [Option.some.inj hc] at hnot
  simpa using hnot

theorem trim_trimmed (cs : List Char) : Trimmed (trim cs) :=
  trim_eq_self head_trim getLast_trim

theorem Trimmed.head {cs : List Char} (h : Trimmed cs) : ∀ c ∈ cs.head?, isBlank c = false := by
  rw [← show trim cs = cs from h]
  exact head_trim

theorem Trimmed.getLast {cs : List Char} (h : Trimmed cs) :
    ∀ c ∈ cs.getLast?, isBlank c = false := by
  rw [← show trim cs = cs from h]
  exact getLast_trim

end Storyboard.Text
