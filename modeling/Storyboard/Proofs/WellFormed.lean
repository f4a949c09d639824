import Mathlib.Data.List.Nodup
import Mathlib.Tactic.MkIffOfInductiveProp
import Storyboard.Proofs.Grammar
import Storyboard.Proofs.Trimming

/-!
# Screens that are read are well formed

A screen can be built with anything in it, but the notation cannot write
everything: what stands on a line is trimmed and has no line break, an arrow
ends the label of an action, and an action that leads to a screen is a
component and a transition at once. Whatever the text, the screens read from
it obey these rules.

## Main results

* `Screen.WellFormed` — the rules.
* `Notation.wellFormed_read_line` — what a line adds obeys them.
* `Screen.WellFormed.add` — adding keeps them.
* `Notation.read_wellFormed` — screens that are read obey them.
-/

namespace Storyboard

/-- Whether a text is trimmed and stands on one line. -/
@[mk_iff]
structure Text.Clean (s : String) : Prop where
  trimmed : Text.Trimmed s.toList
  oneLine : ∀ c ∈ s.toList, Text.isBreak c = false

/-! ## The rules -/

/-- Whether a component can be written: only the name of an action must not
have an arrow. -/
@[mk_iff]
structure Component.WellFormed (c : Component) : Prop where
  name_ne : c.name ≠ ""
  name_clean : Text.Clean c.name
  arrowFree : c.kind = .action → ¬Notation.arrow <:+: c.name.toList

/-- Whether a transition can be written. -/
@[mk_iff]
structure Transition.WellFormed (t : Transition) : Prop where
  target_ne : t.target ≠ ""
  target_clean : Text.Clean t.target
  trigger_clean : Text.Clean t.trigger
  condition_clean : Text.Clean t.condition
  exclusive : t.trigger = "" ∨ t.condition = ""
  arrowFree : ¬Notation.arrow <:+: t.trigger.toList
  endFree : t.condition ≠ "" → ¬Notation.conditionEnd <:+: t.target.toList

namespace Screen

/-- The names of the actions among some components, in order. -/
def actionNames (cs : List Component) : List String :=
  (cs.filter (·.kind = .action)).map (·.name)

/-- The triggers of those among some transitions that have one, in order. -/
def triggers (ts : List Transition) : List String :=
  (ts.filter (·.trigger ≠ "")).map (·.trigger)

/-- Whether a screen can be written. -/
@[mk_iff]
structure WellFormed (s : Screen) : Prop where
  name_ne : s.name ≠ ""
  name_clean : Text.Clean s.name
  components : ∀ c ∈ s.components, c.WellFormed
  transitions : ∀ t ∈ s.transitions, t.WellFormed
  triggers_sublist : (triggers s.transitions).Sublist (actionNames s.components)
  sections_sorted : s.sections.Pairwise (· ≤ ·)
  sections_range : ∀ k ∈ s.sections, 0 ≤ k ∧ k ≤ s.components.length
  categories : (s.requirements.toList.map (·.1)).Nodup
  requirements : ∀ e ∈ s.requirements.toList, Text.Clean e.2

end Screen

instance (s : String) : Decidable (Text.Clean s) :=
  decidable_of_iff (Text.Trimmed s.toList ∧ s.toList.all (fun c => !Text.isBreak c) = true)
    (by simp [Text.clean_iff])

instance (c : Component) : Decidable c.WellFormed :=
  decidable_of_iff _ (Component.wellFormed_iff c).symm

instance (t : Transition) : Decidable t.WellFormed :=
  decidable_of_iff _ (Transition.wellFormed_iff t).symm

instance (s : Screen) : Decidable s.WellFormed :=
  decidable_of_iff _ (Screen.wellFormed_iff s).symm

namespace Notation

/-- Whether an item can be written on a line. -/
def Item.WellFormed : Item → Prop
  | .sectionBreak => True
  | .action label target =>
    Component.WellFormed ⟨.action, label⟩ ∧ Transition.WellFormed ⟨target, label, ""⟩
  | .conditional condition target =>
    condition ≠ "" ∧ Transition.WellFormed ⟨target, "", condition⟩
  | .jump target => Transition.WellFormed ⟨target, "", ""⟩
  | .component c => c.WellFormed
  | .requirement _ text => Text.Clean text

/-- Whether a line as read names or adds what can be written. -/
def Line.WellFormed : Line → Prop
  | .header name => name ≠ "" ∧ Text.Clean name
  | .body _ (.ok item) => item.WellFormed
  | _ => True

end Notation

/-! ## Requirements -/

theorem Requirements.mem_toList {r : Requirements} {c : Category} {text : String} :
    (c, text) ∈ r.toList ↔ r.get? c = some text := by
  rw [toList, List.mem_filterMap]
  constructor
  · rintro ⟨d, -, hd⟩
    obtain ⟨text', htext, heq⟩ := Option.map_eq_some_iff.1 hd
    cases heq
    exact htext
  · intro h
    refine ⟨c, ?_, by rw [h]; rfl⟩
    cases c <;> decide

private theorem Requirements.nodup_toList (r : Requirements) : (r.toList.map (·.1)).Nodup := by
  rw [toList, List.map_filterMap]
  refine List.Nodup.filterMap ?_ (by decide : Category.all.Nodup)
  intro c d b hc hd
  simp only [Option.map_map, Option.mem_def, Option.map_eq_some_iff, Function.comp_apply] at hc hd
  obtain ⟨-, -, rfl⟩ := hc
  obtain ⟨-, -, rfl⟩ := hd
  rfl

/-! ## What a line adds -/

namespace Notation

theorem clean_empty : Text.Clean "" := ⟨rfl, by simp⟩

theorem not_infix_empty : ¬arrow <:+: "".toList := by decide

/-- A piece of a line is clean once it is trimmed. -/
theorem clean_trim {line piece : List Char} (hline : ∀ c ∈ line, Text.isBreak c = false)
    (h : piece <:+: line) : Text.Clean (String.ofList (Text.trim piece)) := by
  constructor
  · rw [String.toList_ofList]
    exact Text.trim_trimmed piece
  · intro c hc
    rw [String.toList_ofList] at hc
    exact hline c (h.subset ((Text.trim_infix piece).subset hc))

theorem not_infix_trim {mark piece : List Char} (h : ¬mark <:+: piece) :
    ¬mark <:+: (String.ofList (Text.trim piece)).toList := by
  rw [String.toList_ofList]
  exact fun hmark => h (hmark.trans (Text.trim_infix piece))

variable {line : List Char}

theorem Opens.wellFormed {name : String} (hline : ∀ c ∈ line, Text.isBreak c = false)
    (h : Opens line name) : (Line.header name).WellFormed := by
  obtain ⟨inside, rfl, hne, rfl⟩ := h
  have hpiece : inside <:+: '[' :: (inside ++ [']']) := ⟨['['], [']'], by simp⟩
  exact ⟨mt String.ofList_eq_empty_iff.1 hne, clean_trim hline hpiece⟩

/-- A trimmed line with a name after its letter has a name that is not
blank. -/
theorem trim_ne_nil_of_trimmed {first second : Char} {name : List Char}
    (h : Text.Trimmed (first :: second :: name)) (hne : name ≠ []) : Text.trim name ≠ [] := by
  intro hnil
  have hlast : (first :: second :: name).getLast? = some (name.getLast hne) := by
    rw [show first :: second :: name = [first, second] ++ name from rfl,
      List.getLast?_append_of_ne_nil _ hne, List.getLast?_eq_some_getLast hne]
  have hblank := Text.trim_eq_nil_iff.1 hnil _ (List.getLast_mem hne)
  rw [h.getLast _ hlast] at hblank
  cases hblank

/-- What a trimmed line adds obeys the rules. -/
theorem Adds.wellFormed {item : Item} (hline : ∀ c ∈ line, Text.isBreak c = false)
    (htrimmed : Text.Trimmed line) (h : Adds line item) : item.WellFormed := by
  cases h with
  | sectionBreak => trivial
  | @action label target hfree hlabel htarget =>
      have hlabelPiece : label <:+: 'A' :: ' ' :: (label ++ (arrow ++ target)) :=
        ⟨['A', ' '], arrow ++ target, by simp⟩
      have htargetPiece : target <:+: 'A' :: ' ' :: (label ++ (arrow ++ target)) :=
        ⟨'A' :: ' ' :: (label ++ arrow), [], by simp⟩
      have hlabel_ne := mt String.ofList_eq_empty_iff.1 hlabel
      exact ⟨⟨hlabel_ne, clean_trim hline hlabelPiece, fun _ => not_infix_trim hfree⟩,
        mt String.ofList_eq_empty_iff.1 htarget, clean_trim hline htargetPiece,
        clean_trim hline hlabelPiece, clean_empty, Or.inr rfl, not_infix_trim hfree,
        fun hne => absurd rfl hne⟩
  | @conditional condition target hfree hcondition htarget =>
      have hconditionPiece : condition <:+: '=' :: '{' :: (condition ++ (conditionEnd ++ target)) :=
        ⟨['=', '{'], conditionEnd ++ target, by simp⟩
      have htargetPiece : target <:+: '=' :: '{' :: (condition ++ (conditionEnd ++ target)) :=
        ⟨'=' :: '{' :: (condition ++ conditionEnd), [], by simp⟩
      exact ⟨mt String.ofList_eq_empty_iff.1 hcondition, mt String.ofList_eq_empty_iff.1 htarget,
        clean_trim hline htargetPiece, clean_empty, clean_trim hline hconditionPiece, Or.inl rfl,
        not_infix_empty, fun _ => not_infix_trim hfree⟩
  | @jump target htarget =>
      exact ⟨mt String.ofList_eq_empty_iff.1 htarget,
        clean_trim hline (List.suffix_append arrow target).isInfix, clean_empty, clean_empty,
        Or.inl rfl, not_infix_empty, fun hne => absurd rfl hne⟩
  | @component kind name hne hfree =>
      have hname : Text.trim name ≠ [] := trim_ne_nil_of_trimmed htrimmed hne
      exact ⟨mt String.ofList_eq_empty_iff.1 hname,
        clean_trim hline (List.suffix_append [kind.letter, ' '] name).isInfix,
        fun hkind => not_infix_trim (hfree hkind)⟩
  | @requirement category code text hcolon hcode =>
      have hpiece : text <:+: '/' :: '/' :: (code ++ ':' :: text) :=
        ⟨'/' :: '/' :: (code ++ [':']), [], by simp⟩
      exact clean_trim hline hpiece

/-- What a trimmed line opens or adds obeys the rules. -/
theorem wellFormed_read_line (hline : ∀ c ∈ line, Text.isBreak c = false)
    (htrimmed : Text.Trimmed line) : (Line.read line).WellFormed := by
  cases hread : Line.read line with
  | header name => exact (read_eq_header_iff.1 hread).wellFormed hline
  | emptyHeader => trivial
  | unrecognized => trivial
  | body form content =>
      cases content with
      | error flaw => trivial
      | ok item => exact (Adds.of_read hread).wellFormed hline htrimmed

end Notation

/-! ## Adding to a screen -/

namespace Screen

open Notation

@[simp] theorem actionNames_append (cs ds : List Component) :
    actionNames (cs ++ ds) = actionNames cs ++ actionNames ds := by
  simp [actionNames]

@[simp] theorem triggers_append (ts us : List Transition) :
    triggers (ts ++ us) = triggers ts ++ triggers us := by
  simp [triggers]

theorem WellFormed.opened {name : String} (hne : name ≠ "") (hclean : Text.Clean name) :
    WellFormed { name := name } :=
  ⟨hne, hclean, by simp, by simp, List.Sublist.refl [], List.Pairwise.nil, by simp,
    List.nodup_nil, by simp [Requirements.toList, Category.all, Requirements.get?]⟩

theorem forall_mem_concat {α : Type} {p : α → Prop} {xs : List α} {x : α}
    (h : ∀ y ∈ xs, p y) (hx : p x) : ∀ y ∈ xs ++ [x], p y := by
  intro y hy
  rcases List.mem_append.1 hy with hy | hy
  · exact h y hy
  · rw [List.mem_singleton.1 hy]
    exact hx

private theorem WellFormed.sections_range_concat {s : Screen} (h : s.WellFormed) (c : Component) :
    ∀ k ∈ s.sections, 0 ≤ k ∧ k ≤ ((s.components ++ [c]).length : Int) := by
  intro k hk
  have hrange := h.sections_range k hk
  rw [List.length_append, List.length_singleton]
  omega

private theorem WellFormed.add_transition {s : Screen} (h : s.WellFormed) {t : Transition}
    (ht : t.WellFormed) (htrigger : t.trigger = "") :
    WellFormed { s with transitions := s.transitions ++ [t] } where
  __ := h
  transitions := forall_mem_concat h.transitions ht
  triggers_sublist := by
    have hnone : triggers [t] = [] := by simp [triggers, htrigger]
    rw [triggers_append, hnone, List.append_nil]
    exact h.triggers_sublist

/-- Adding an item keeps a screen well formed. -/
theorem WellFormed.add {s : Screen} (h : s.WellFormed) {item : Item} (hitem : item.WellFormed) :
    (s.add item).WellFormed := by
  cases item with
  | sectionBreak =>
      refine { h with sections_sorted := ?_, sections_range := ?_ }
      · refine List.pairwise_append.2 ⟨h.sections_sorted, List.pairwise_singleton _ _, ?_⟩
        intro k hk j hj
        rw [List.mem_singleton.1 hj]
        exact (h.sections_range k hk).2
      · exact forall_mem_concat h.sections_range ⟨by omega, Int.le_refl _⟩
  | action label target =>
      obtain ⟨hcomponent, htransition⟩ := hitem
      refine { h with
        components := forall_mem_concat h.components hcomponent
        transitions := forall_mem_concat h.transitions htransition
        triggers_sublist := ?_
        sections_range := h.sections_range_concat _ }
      have htrigger : triggers [⟨target, label, ""⟩] = [label] := by
        simp [triggers, show label ≠ "" from hcomponent.name_ne]
      have hname : actionNames [⟨.action, label⟩] = [label] := rfl
      show (triggers (s.transitions ++ [⟨target, label, ""⟩])).Sublist
        (actionNames (s.components ++ [⟨.action, label⟩]))
      rw [triggers_append, actionNames_append, htrigger, hname]
      exact h.triggers_sublist.append_right [label]
  | conditional condition target => exact h.add_transition hitem.2 rfl
  | jump target => exact h.add_transition hitem rfl
  | component c =>
      refine { h with
        components := forall_mem_concat h.components hitem
        triggers_sublist := ?_
        sections_range := h.sections_range_concat c }
      show (triggers s.transitions).Sublist (actionNames (s.components ++ [c]))
      rw [actionNames_append]
      exact h.triggers_sublist.trans (List.sublist_append_left _ _)
  | requirement category text =>
      refine { h with categories := Requirements.nodup_toList _, requirements := ?_ }
      rintro ⟨d, other⟩ hmem
      have hget := Requirements.mem_toList.1 hmem
      have hset : (s.requirements.set category text).get? d = some other := hget
      rw [Requirements.get?_set] at hset
      split at hset
      · cases hset
        exact hitem
      · exact h.requirements (d, other) (Requirements.mem_toList.2 hset)

end Screen

/-! ## Reading lines -/

namespace Notation

/-- One line closes and opens only well-formed screens. -/
theorem step_wellFormed {current : Option Screen} (h : ∀ s ∈ current, s.WellFormed) {line : Line}
    (hline : line.WellFormed) :
    (∀ s ∈ (step current line).closed, s.WellFormed) ∧
      ∀ s ∈ (step current line).opened, s.WellFormed := by
  cases line with
  | header name =>
      refine ⟨h, fun s hs => ?_⟩
      cases hs
      exact Screen.WellFormed.opened hline.1 hline.2
  | emptyHeader => exact ⟨by simp [step], h⟩
  | unrecognized => exact ⟨by simp [step], h⟩
  | body form content =>
      cases current with
      | none => exact ⟨by simp [step], by simp [step]⟩
      | some s =>
          have hs : s.WellFormed := h s rfl
          cases content with
          | error flaw => exact ⟨by simp [step], h⟩
          | ok item =>
              refine ⟨by simp [step], fun s' hs' => ?_⟩
              cases hs'
              exact hs.add hline

/-- Lines without breaks, read with a well-formed screen open or none, give
well-formed screens. -/
theorem readLines_wellFormed :
    ∀ (ls : List (List Char)) (current : Option Screen) (number : Nat),
      (∀ l ∈ ls, ∀ c ∈ l, Text.isBreak c = false) → (∀ s ∈ current, s.WellFormed) →
        ∀ s ∈ (readLines current number ls).1, s.WellFormed := by
  intro ls
  induction ls with
  | nil =>
      intro current number _ hcurrent s hs
      exact hcurrent s (Option.mem_toList.1 hs)
  | cons raw rest ih =>
      intro current number hls hcurrent s hs
      have hrest : ∀ l ∈ rest, ∀ c ∈ l, Text.isBreak c = false := fun l hl =>
        hls l (by simp [hl])
      rw [readLines] at hs
      dsimp only at hs
      split at hs
      · exact ih current (number + 1) hrest hcurrent s hs
      · have hline : ∀ c ∈ Text.trim raw, Text.isBreak c = false := fun c hc =>
          hls raw (by simp) c ((Text.trim_infix raw).subset hc)
        obtain ⟨hclosed, hopened⟩ :=
          step_wellFormed hcurrent (wellFormed_read_line hline (Text.trim_trimmed raw))
        rcases List.mem_append.1 hs with hs | hs
        · exact hclosed s (Option.mem_toList.1 hs)
        · exact ih _ (number + 1) hrest hopened s hs

/-- Whatever the text, every screen read from it is well formed. -/
theorem read_wellFormed (text : String) : ∀ s ∈ (read text).flow.screens, s.WellFormed :=
  readLines_wellFormed (Text.lines text.toList) none 1 Text.isBreak_of_mem_lines (by simp)

/-- A text with lines of every form, some of which are skipped. -/
def draft : String :=
  "T lost\n [ Home ]\r\n// P: fast\n// P :\nT A => B\n--\n\tA Go=>Away\n" ++
    "=\x7bx\x7d=>y\x7d=> [z]\n=> \n=>Back"

theorem draft_wellFormed : ∃ s, (read draft).flow.screens = [s] ∧ s.transitions.length = 3 ∧
    s.sections = [1] ∧ s.WellFormed := by
  have hread : (read draft).flow.screens =
      [{ name := "Home"
         components := [⟨.text, "A => B"⟩, ⟨.action, "Go"⟩]
         requirements := { performance := some "" }
         transitions := [⟨"Away", "Go", ""⟩, ⟨"[z]", "", "x\x7d=>y"⟩, ⟨"Back", "", ""⟩]
         sections := [1] }] := by decide
  refine ⟨_, hread, rfl, rfl, read_wellFormed draft _ ?_⟩
  rw [hread]
  exact List.mem_singleton_self _

end Notation

end Storyboard
