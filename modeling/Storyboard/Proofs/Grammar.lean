import Storyboard.Notation.Reading
import Storyboard.Proofs.Cutting

/-!
# The grammar of lines

The reader tries the forms of a line one after the other. The grammar says the
same without an order: which lines open a screen and under what name, and
which lines add what to it. The forms begin differently, so that they exclude
each other, except that an action with an arrow in it is never a component
alone.

## Main results

* `Notation.Opens`, `Notation.Adds` — the grammar.
* `Notation.read_eq_header_iff` — a line is read as a header exactly if it
  opens a screen.
* `Notation.read_eq_ok_iff` — a line is read as an item exactly if it adds it.
* `Notation.step_cases` — what a line can do to a reading.
-/

namespace Storyboard.Notation

/-- Whether a line opens the screen `name`: it has brackets around the name,
which is not blank. -/
def Opens (line : List Char) (name : String) : Prop :=
  ∃ inside, line = '[' :: (inside ++ [']']) ∧ Text.trim inside ≠ [] ∧
    name = String.ofList (Text.trim inside)

/-- What a line adds to the screen that it stands in. The label of an action
ends at the first arrow, the condition of a transition at the last closing
brace with an arrow behind it, and the code of a requirement at the first
colon. -/
inductive Adds : List Char → Item → Prop where
  | sectionBreak : Adds ['-', '-'] .sectionBreak
  | action {label target : List Char} (free : ¬arrow <:+: label)
      (label_ne : Text.trim label ≠ []) (target_ne : Text.trim target ≠ []) :
      Adds ('A' :: ' ' :: (label ++ (arrow ++ target)))
        (.action (String.ofList (Text.trim label)) (String.ofList (Text.trim target)))
  | conditional {condition target : List Char} (free : ¬conditionEnd <:+: target)
      (condition_ne : Text.trim condition ≠ []) (target_ne : Text.trim target ≠ []) :
      Adds ('=' :: '{' :: (condition ++ (conditionEnd ++ target)))
        (.conditional (String.ofList (Text.trim condition)) (String.ofList (Text.trim target)))
  | jump {target : List Char} (target_ne : Text.trim target ≠ []) :
      Adds (arrow ++ target) (.jump (String.ofList (Text.trim target)))
  | component {kind : Kind} {name : List Char} (name_ne : name ≠ [])
      (free : kind = .action → ¬arrow <:+: name) :
      Adds (kind.letter :: ' ' :: name) (.component ⟨kind, String.ofList (Text.trim name)⟩)
  | requirement {category : Category} {code text : List Char} (colon : ':' ∉ code)
      (known : Text.trim code = [category.code]) :
      Adds ('/' :: '/' :: (code ++ ':' :: text))
        (.requirement category (String.ofList (Text.trim text)))

/-! ## Headers -/

theorem interior?_eq_some_iff {line inside : List Char} :
    interior? line = some inside ↔ line = '[' :: (inside ++ [']']) := by
  constructor
  · intro h
    unfold interior? at h
    split at h
    · rename_i rest
      split at h
      · rename_i hlast
        cases h
        rw [List.dropLast_append_getLast? ']' hlast]
      · cases h
    · cases h
  · rintro rfl
    rw [interior?, if_pos List.getLast?_concat, List.dropLast_concat]

/-- A line is read as a header exactly if it opens a screen. -/
theorem read_eq_header_iff {line : List Char} {name : String} :
    Line.read line = .header name ↔ Opens line name := by
  constructor
  · intro h
    unfold Line.read at h
    split at h
    · rename_i inside hinside
      split at h
      · cases h
      · rename_i hne
        cases h
        exact ⟨inside, interior?_eq_some_iff.1 hinside, hne, rfl⟩
    · repeat' split at h
      all_goals cases h
  · rintro ⟨inside, hline, hne, rfl⟩
    rw [Line.read, interior?_eq_some_iff.2 hline]
    dsimp only
    rw [if_neg hne]

theorem Opens.unique {line : List Char} {name name' : String} (h : Opens line name)
    (h' : Opens line name') : name = name' := by
  have hread := read_eq_header_iff.2 h
  rw [read_eq_header_iff.2 h'] at hread
  cases hread
  rfl

/-! ## Items -/

theorem withTarget_eq_ok_iff {part target : List Char} {empty : Flaw}
    {form : String → String → Item} {item : Item} :
    withTarget part target empty form = .ok item ↔ Text.trim part ≠ [] ∧ Text.trim target ≠ [] ∧
      item = form (String.ofList (Text.trim part)) (String.ofList (Text.trim target)) := by
  unfold withTarget
  split
  · rename_i hpart
    simp [hpart]
  · rename_i hpart
    split
    · rename_i htarget
      simp [htarget]
    · rename_i htarget
      simp [hpart, htarget, eq_comm]

/-- An action that leads to a screen is cut at its first arrow. -/
theorem action?_eq_some_iff {line label target : List Char} :
    action? line = some (label, target) ↔
      line = 'A' :: ' ' :: (label ++ (arrow ++ target)) ∧ ¬arrow <:+: label := by
  constructor
  · intro h
    unfold action? at h
    split at h
    · obtain ⟨hrest, hfree⟩ := Text.cutFirst?_eq_some (by decide) h
      exact ⟨by rw [hrest], hfree⟩
    · cases h
  · rintro ⟨rfl, hfree⟩
    exact Text.Unbordered.cutFirst?_append (by decide) (by decide) hfree target

/-- A conditional transition is cut at the last mark that ends a condition. -/
theorem conditional?_eq_some_iff {line condition target : List Char} :
    conditional? line = some (condition, target) ↔
      line = '=' :: '{' :: (condition ++ (conditionEnd ++ target)) ∧ ¬conditionEnd <:+: target := by
  constructor
  · intro h
    unfold conditional? at h
    split at h
    · obtain ⟨hrest, hfree⟩ := Text.cutLast?_eq_some (by decide) h
      exact ⟨by rw [hrest], hfree⟩
    · cases h
  · rintro ⟨rfl, hfree⟩
    exact Text.Unbordered.cutLast?_append (by decide) (by decide) hfree condition

private theorem jumpTo_eq_ok_iff {target : List Char} {item : Item} :
    jumpTo target = .ok item ↔
      Text.trim target ≠ [] ∧ item = .jump (String.ofList (Text.trim target)) := by
  unfold jumpTo
  split
  · rename_i hnil
    simp [hnil]
  · rename_i hne
    simp [hne, eq_comm]

/-- A component is a letter, a space and something behind them. -/
theorem component?_eq_some_iff {line : List Char} {c : Component} :
    component? line = some c ↔ ∃ name, name ≠ [] ∧ line = c.kind.letter :: ' ' :: name ∧
      c.name = String.ofList (Text.trim name) := by
  constructor
  · intro h
    unfold component? at h
    split at h
    · rename_i letter first rest
      obtain ⟨kind, hkind, rfl⟩ := Option.map_eq_some_iff.1 h
      have hletter : kind.letter = letter := by simpa using List.find?_some hkind
      exact ⟨first :: rest, List.cons_ne_nil _ _, by rw [hletter], rfl⟩
    · cases h
  · obtain ⟨kind, name⟩ := c
    rintro ⟨text, hne, rfl, hname⟩
    obtain ⟨first, rest, rfl⟩ := List.exists_cons_of_ne_nil hne
    rw [component?, Kind.ofLetter?_letter, Option.map_some, ← show name = _ from hname]

private theorem ofCode?_eq_some_iff {code : List Char} {category : Category} :
    Category.ofCode? code = some category ↔ Text.trim code = [category.code] := by
  constructor
  · intro h
    have hfound := List.find?_some h
    rw [beq_iff_eq] at hfound
    exact hfound.symm
  · intro h
    rw [Category.ofCode?, h]
    cases category <;> rfl

/-- A requirement has a known code before its first colon. -/
theorem requirementOf_eq_ok_iff {rest : List Char} {item : Item} :
    requirementOf rest = .ok item ↔ ∃ category code text, ':' ∉ code ∧
      Text.trim code = [category.code] ∧ rest = code ++ ':' :: text ∧
        item = .requirement category (String.ofList (Text.trim text)) := by
  constructor
  · intro h
    unfold requirementOf at h
    split at h
    · cases h
    · rename_i code text hcut
      obtain ⟨hrest, hfree⟩ := Text.cutFirst?_eq_some (by decide) hcut
      split at h
      · cases h
      · rename_i category hcategory
        cases h
        exact ⟨category, code, text, mt (List.singleton_infix_iff ':' code).2 hfree,
          ofCode?_eq_some_iff.1 hcategory, hrest, rfl⟩
  · rintro ⟨category, code, text, hcolon, hcode, rfl, rfl⟩
    have hcut : Text.cutFirst? [':'] (code ++ ([':'] ++ text)) = some (code, text) :=
      Text.Unbordered.cutFirst?_append (by decide) (by decide)
        (mt (List.singleton_infix_iff ':' code).1 hcolon) text
    rw [List.singleton_append] at hcut
    rw [requirementOf, hcut]
    dsimp only
    rw [ofCode?_eq_some_iff.2 hcode]

/-- A component line adds its component, for an action only because the line
is not cut at an arrow. -/
theorem Adds.of_component? {line : List Char} {c : Component} (haction : action? line = none)
    (h : component? line = some c) : Adds line (.component c) := by
  obtain ⟨kind, label⟩ := c
  obtain ⟨name, hne, rfl, rfl⟩ := component?_eq_some_iff.1 h
  apply Adds.component hne
  rintro rfl
  exact (Text.cutFirst?_eq_none_iff (by decide)).1 haction

/-- What is read as an item is added by the grammar. -/
theorem Adds.of_read {line : List Char} {form : Form} {item : Item}
    (h : Line.read line = .body form (.ok item)) : Adds line item := by
  unfold Line.read at h
  split at h
  · split at h <;> cases h
  · split at h
    · rename_i hline
      cases h
      rw [hline]
      exact .sectionBreak
    · split at h
      · rename_i label target haction
        obtain ⟨hline, hfree⟩ := action?_eq_some_iff.1 haction
        obtain ⟨hlabel, htarget, rfl⟩ := withTarget_eq_ok_iff.1 (Line.body.inj h).2
        rw [hline]
        exact .action hfree hlabel htarget
      · rename_i haction
        split at h
        · rename_i condition target hconditional
          obtain ⟨hline, hfree⟩ := conditional?_eq_some_iff.1 hconditional
          obtain ⟨hcondition, htarget, rfl⟩ := withTarget_eq_ok_iff.1 (Line.body.inj h).2
          rw [hline]
          exact .conditional hfree hcondition htarget
        · split at h
          · rename_i target hjump
            obtain ⟨htarget, rfl⟩ := jumpTo_eq_ok_iff.1 (Line.body.inj h).2
            rw [Text.isPrefixOf?_eq_some_iff.1 hjump]
            exact .jump htarget
          · split at h
            · rename_i c hcomponent
              cases h
              exact .of_component? haction hcomponent
            · split at h
              · rename_i rest hrequirement
                obtain ⟨category, code, text, hcolon, hcode, rfl, rfl⟩ :=
                  requirementOf_eq_ok_iff.1 (Line.body.inj h).2
                rw [Text.isPrefixOf?_eq_some_iff.1 hrequirement]
                exact .requirement hcolon hcode
              · cases h

/-- What the grammar adds is read as an item: no earlier form has the line. -/
theorem Adds.exists_read {line : List Char} {item : Item} (h : Adds line item) :
    ∃ form, Line.read line = .body form (.ok item) := by
  cases h with
  | sectionBreak => exact ⟨.sectionBreak, rfl⟩
  | @action label target hfree hlabel htarget =>
      have hcut := action?_eq_some_iff.2
        ⟨Eq.refl ('A' :: ' ' :: (label ++ (arrow ++ target))), hfree⟩
      have hinside : interior? ('A' :: ' ' :: (label ++ (arrow ++ target))) = none := rfl
      refine ⟨.action, ?_⟩
      rw [Line.read, hinside]
      dsimp only
      rw [if_neg (by simp), hcut]
      dsimp only
      rw [withTarget_eq_ok_iff.2 ⟨hlabel, htarget, rfl⟩]
  | @conditional condition target hfree hcondition htarget =>
      have hcut := conditional?_eq_some_iff.2
        ⟨Eq.refl ('=' :: '{' :: (condition ++ (conditionEnd ++ target))), hfree⟩
      have hinside : interior? ('=' :: '{' :: (condition ++ (conditionEnd ++ target))) = none := rfl
      have haction : action? ('=' :: '{' :: (condition ++ (conditionEnd ++ target))) = none := rfl
      refine ⟨.conditional, ?_⟩
      rw [Line.read, hinside]
      dsimp only
      rw [if_neg (by simp), haction]
      dsimp only
      rw [hcut]
      dsimp only
      rw [withTarget_eq_ok_iff.2 ⟨hcondition, htarget, rfl⟩]
  | @jump target htarget =>
      refine ⟨.jump, ?_⟩
      rw [← jumpTo_eq_ok_iff.2 ⟨htarget, rfl⟩]
      show (if arrow ++ target = ['-', '-'] then Line.body .sectionBreak (.ok .sectionBreak)
        else Line.body .jump (jumpTo target)) = _
      rw [if_neg (by simp [arrow])]
  | @component kind name hne hfree =>
      have hinside : interior? (kind.letter :: ' ' :: name) = none := by
        cases kind <;> rfl
      have haction : action? (kind.letter :: ' ' :: name) = none := by
        cases kind with
        | action => exact (Text.cutFirst?_eq_none_iff (by decide)).2 (hfree rfl)
        | _ => rfl
      have hconditional : conditional? (kind.letter :: ' ' :: name) = none := by
        cases kind <;> rfl
      have harrow : arrow.isPrefixOf? (kind.letter :: ' ' :: name) = none := by
        cases kind <;> rfl
      have hcomponent : component? (kind.letter :: ' ' :: name) =
          some ⟨kind, String.ofList (Text.trim name)⟩ :=
        component?_eq_some_iff.2 ⟨name, hne, rfl, rfl⟩
      refine ⟨.component, ?_⟩
      rw [Line.read, hinside]
      dsimp only
      rw [if_neg (by simp), haction]
      dsimp only
      rw [hconditional]
      dsimp only
      rw [harrow]
      dsimp only
      rw [hcomponent]
  | @requirement category code text hcolon hcode =>
      refine ⟨.requirement, ?_⟩
      rw [← requirementOf_eq_ok_iff.2 ⟨category, code, text, hcolon, hcode, rfl, rfl⟩]
      rfl

/-- A line is read as an item exactly if it adds the item. -/
theorem read_eq_ok_iff {line : List Char} {item : Item} :
    (∃ form, Line.read line = .body form (.ok item)) ↔ Adds line item :=
  ⟨fun ⟨_, h⟩ => .of_read h, Adds.exists_read⟩

theorem Adds.unique {line : List Char} {item item' : Item} (h : Adds line item)
    (h' : Adds line item') : item = item' := by
  obtain ⟨form, hread⟩ := h.exists_read
  obtain ⟨form', hread'⟩ := h'.exists_read
  rw [hread] at hread'
  cases hread'
  rfl

/-! ## Effects -/

/-- What a line can do: open a screen, add to the one that is open, or nothing
at all and be skipped. -/
theorem step_cases (current : Option Screen) (line : List Char) :
    (∃ name, Opens line name ∧
        step current (Line.read line) = ⟨current, some { name := name }, none⟩) ∨
      (∃ s item, current = some s ∧ Adds line item ∧
        step current (Line.read line) = ⟨none, some (s.add item), none⟩) ∨
      ((∀ name, ¬Opens line name) ∧ (∀ s ∈ current, ∀ item, ¬Adds line item) ∧
        ∃ reason, step current (Line.read line) = ⟨none, current, some reason⟩) := by
  have hopens : ∀ name, Opens line name → Line.read line = .header name := fun name =>
    read_eq_header_iff.2
  have hadds : ∀ item, Adds line item → ∃ form, Line.read line = .body form (.ok item) :=
    fun item => read_eq_ok_iff.2
  cases hread : Line.read line with
  | header name => exact Or.inl ⟨name, read_eq_header_iff.1 hread, rfl⟩
  | emptyHeader =>
      rw [hread] at hopens hadds
      exact Or.inr (Or.inr ⟨by simpa using hopens, fun _ _ => by simpa using hadds, _, rfl⟩)
  | unrecognized =>
      rw [hread] at hopens hadds
      exact Or.inr (Or.inr ⟨by simpa using hopens, fun _ _ => by simpa using hadds, _, rfl⟩)
  | body form content =>
      rw [hread] at hopens hadds
      cases current with
      | none => exact Or.inr (Or.inr ⟨by simpa using hopens, by simp, _, rfl⟩)
      | some s =>
          cases content with
          | error flaw =>
              exact Or.inr (Or.inr ⟨by simpa using hopens, fun _ _ => by simpa using hadds, _, rfl⟩)
          | ok item => exact Or.inr (Or.inl ⟨s, item, rfl, .of_read hread, rfl⟩)

end Storyboard.Notation
