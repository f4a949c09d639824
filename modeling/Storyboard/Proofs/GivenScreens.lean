import Mathlib.Data.List.Perm.Subperm
import Mathlib.Data.Prod.Lex
import Mathlib.Data.String.Basic
import Storyboard.Proofs.Sequence
import Storyboard.Screen.Given

/-!
# Given screens are compared by their content

A register is compared entry by entry and filed under its entries sorted by code.
Both come to one thing: that the entries of the two registers are a permutation of
each other. Since no category has two entries, that in turn is to say that every
category has the same description. The requirements of a screen hold just these
descriptions, so that two given screens are the same, or have the same key, exactly
if they come to the same screen.

## Main definitions

* `lastGiven` — the description of a category that counts, among those given.

## Main results

* `Register.same_iff_perm`, `Register.perm_iff_get?`, `Register.key_eq_iff_perm` —
  registers that are the same.
* `Register.get?_ofList`, `Register.get?_toRequirements` — what a register holds.
* `Screen.Given.compared_by_content` — given screens and flows.
-/

namespace Storyboard

/-- The description that was given last for a category. -/
def lastGiven (given : List (Category × String)) (category : Category) : Option String :=
  given.reverse.lookup category

/-- Where every description takes the place of the one before it, the last one
given counts. -/
theorem get_foldl_eq_lastGiven {ρ : Type} {get : ρ → Category → Option String}
    {put : ρ → Category → String → ρ} {start : ρ} (hstart : ∀ d, get start d = none)
    (hput : ∀ r c text d, get (put r c text) d = if d = c then some text else get r d)
    (given : List (Category × String)) (d : Category) :
    get (given.foldl (fun r e => put r e.1 e.2) start) d = lastGiven given d := by
  induction given using List.reverseRecOn with
  | nil => exact hstart d
  | append_singleton given e ih =>
      rw [List.foldl_concat, hput, ih, lastGiven, lastGiven, List.reverse_concat,
        Sequence.lookup_cons_eq]

/-- Of entries with distinct categories each can be looked up. -/
theorem lookup_eq_some_iff_mem {entries : List (Category × String)}
    (h : (entries.map Prod.fst).Nodup) {c : Category} {text : String} :
    entries.lookup c = some text ↔ (c, text) ∈ entries := by
  induction entries with
  | nil => simp
  | cons e rest ih =>
      obtain ⟨hfresh, hrest⟩ := List.nodup_cons.1 h
      rw [Sequence.lookup_cons_eq]
      by_cases hc : c = e.1
      · rw [if_pos hc]
        constructor
        · intro htext
          cases htext
          rw [hc]
          exact List.mem_cons_self
        · intro hmem
          rcases List.mem_cons.1 hmem with rfl | hlater
          · rfl
          · have hagain : c ∈ rest.map Prod.fst := List.mem_map_of_mem hlater
            rw [hc] at hagain
            exact absurd hagain hfresh
      · rw [if_neg hc]
        refine (ih hrest).trans ⟨List.mem_cons_of_mem e, fun hmem => ?_⟩
        rcases List.mem_cons.1 hmem with rfl | hlater
        · exact absurd rfl hc
        · exact hlater

private theorem Category.code_injective : Function.Injective Category.code := by
  intro c d
  cases c <;> cases d <;> decide

/-! ## Registers -/

namespace Register

variable {r s : Register} {c : Category} {text : String}

theorem get?_eq_some_iff : r.get? c = some text ↔ (c, text) ∈ r.entries :=
  lookup_eq_some_iff_mem r.nodup

private theorem nodup_entries (r : Register) : r.entries.Nodup :=
  List.Nodup.of_map Prod.fst r.nodup

theorem same_iff_perm : r.same s = true ↔ r.entries.Perm s.entries := by
  rw [same, Bool.and_eq_true, beq_iff_eq, List.all_eq_true]
  constructor
  · -- No entry stands twice, so with equal lengths it is enough to look one way.
    intro ⟨hlength, hfound⟩
    have hsubset : r.entries ⊆ s.entries := fun e he =>
      get?_eq_some_iff.1 (beq_iff_eq.1 (hfound e he))
    exact (List.subperm_of_subset r.nodup_entries hsubset).perm_of_length_le hlength.ge
  · intro hperm
    refine ⟨hperm.length_eq, fun e he => beq_iff_eq.2 ?_⟩
    exact get?_eq_some_iff.2 (hperm.mem_iff.1 he)

theorem perm_iff_get? : r.entries.Perm s.entries ↔ ∀ c, r.get? c = s.get? c := by
  rw [List.perm_ext_iff_of_nodup r.nodup_entries s.nodup_entries]
  constructor
  · intro hmem c
    apply Option.ext
    intro text
    rw [get?_eq_some_iff, get?_eq_some_iff]
    exact hmem (c, text)
  · intro hget (c, text)
    rw [← get?_eq_some_iff, ← get?_eq_some_iff, hget c]

/-! ### Keys -/

theorem entryLe_iff {a b : Char × String} : entryLe a b = true ↔ toLex a ≤ toLex b := by
  rw [entryLe, Bool.or_eq_true, Bool.and_eq_true, decide_eq_true_iff, decide_eq_true_iff,
    beq_iff_eq, Prod.Lex.toLex_le_toLex]

/-- The entries of a key are in order, whatever order they were given in. -/
theorem key_pairwise (r : Register) : r.key.Pairwise fun a b => entryLe a b = true := by
  refine List.pairwise_mergeSort (fun a b c hab hbc => ?_) (fun a b => ?_) _
  · rw [entryLe_iff] at hab hbc ⊢
    exact hab.trans hbc
  · rw [Bool.or_eq_true, entryLe_iff, entryLe_iff]
    exact le_total _ _

theorem key_eq_iff_perm : r.key = s.key ↔ r.entries.Perm s.entries := by
  have hentry : Function.Injective fun e : Category × String => (e.1.code, e.2) :=
    Category.code_injective.prodMap Function.injective_id
  have hkey : r.key.Perm s.key ↔ r.entries.Perm s.entries := by
    rw [key, key, (List.mergeSort_perm _ _).congr_left, (List.mergeSort_perm _ _).congr_right,
      List.map_perm_map_iff hentry]
  rw [← hkey]
  constructor
  · intro h
    rw [h]
  · -- The order tells any two entries apart, so there is but one way to sort them.
    refine List.Perm.eq_of_pairwise (fun a b _ _ hab hba => ?_) r.key_pairwise s.key_pairwise
    rw [entryLe_iff] at hab hba
    exact toLex.injective (le_antisymm hab hba)

/-! ### What a register holds -/

theorem get?_put (r : Register) (c : Category) (text : String) (d : Category) :
    (r.put c text).get? d = if d = c then some text else r.get? d :=
  Sequence.lookup_put c text r.entries d

theorem get?_ofList (given : List (Category × String)) (c : Category) :
    (ofList given).get? c = lastGiven given c :=
  get_foldl_eq_lastGiven (fun _ => rfl) get?_put given c

theorem get?_toRequirements (r : Register) (c : Category) :
    r.toRequirements.get? c = r.get? c := by
  have hlast : r.toRequirements.get? c = lastGiven r.entries c :=
    get_foldl_eq_lastGiven (fun d => by cases d <;> rfl)
      (fun r c text d => Requirements.get?_set r c d text) r.entries c
  have hreverse : (r.entries.reverse.map Prod.fst).Nodup := by
    rw [List.map_reverse]
    exact List.nodup_reverse.2 r.nodup
  rw [hlast, lastGiven]
  apply Option.ext
  intro text
  rw [lookup_eq_some_iff_mem hreverse, get?_eq_some_iff, List.mem_reverse]

private theorem same_iff_get? : r.same s = true ↔ ∀ c, r.get? c = s.get? c :=
  same_iff_perm.trans perm_iff_get?

private theorem same_iff_toRequirements_eq :
    r.same s = true ↔ r.toRequirements = s.toRequirements := by
  rw [same_iff_get?]
  constructor
  · intro h
    apply Requirements.ext_get?
    intro c
    rw [get?_toRequirements, get?_toRequirements]
    exact h c
  · intro h c
    rw [← get?_toRequirements, ← get?_toRequirements, h]

end Register

/-! ## Screens -/

namespace Screen.Given

variable {a b : Given}

theorem same_iff : a.same b = true ↔ a.name = b.name ∧ a.components = b.components ∧
    a.requirements.same b.requirements = true ∧ a.transitions = b.transitions ∧
    a.sections = b.sections := by
  simp only [same, Bool.and_eq_true, beq_iff_eq, and_assoc]

theorem same_iff_key_eq : a.same b = true ↔ a.key = b.key := by
  rw [same_iff, Register.same_iff_perm, ← Register.key_eq_iff_perm]
  simp only [key, Screen.Key.mk.injEq]

/-- Whether two screens are the same can be told from their keys. -/
theorem same_congr {a' b' : Given} (ha : a.key = a'.key) (hb : b.key = b'.key) :
    a.same b = a'.same b' := by
  rw [Bool.eq_iff_iff, same_iff_key_eq, same_iff_key_eq, ha, hb]

private theorem same_iff_toScreen_eq : a.same b = true ↔ a.toScreen = b.toScreen := by
  rw [same_iff, Register.same_iff_toRequirements_eq]
  simp only [toScreen, Screen.mk.injEq]

/-- What tells the screens apart that are not the same also tells the sequences
apart. -/
theorem sameAll_iff_map_eq {κ : Type} {f : Given → κ} (hf : ∀ a b, a.same b = true ↔ f a = f b) :
    ∀ {as bs : List Given}, sameAll as bs = true ↔ as.map f = bs.map f
  | [], [] => by simp [sameAll]
  | [], b :: bs => by simp [sameAll]
  | a :: as, [] => by simp [sameAll]
  | a :: as, b :: bs => by
      rw [sameAll, Bool.and_eq_true, hf, sameAll_iff_map_eq hf, List.map_cons, List.map_cons,
        List.cons.injEq]

/-- Sequences are the same if they are of one length and the same screen by
screen. -/
theorem sameAll_iff : ∀ {as bs : List Given}, sameAll as bs = true ↔
    as.length = bs.length ∧
      ∀ (i : Nat) (a b : Given), as[i]? = some a → bs[i]? = some b → a.same b = true
  | [], [] => by simp [sameAll]
  | [], b :: bs => by simp [sameAll]
  | a :: as, [] => by simp [sameAll]
  | a :: as, b :: bs => by
      rw [sameAll, Bool.and_eq_true, sameAll_iff, List.length_cons, List.length_cons,
        Nat.add_right_cancel_iff]
      constructor
      · intro ⟨hhead, hlength, hrest⟩
        refine ⟨hlength, fun i => ?_⟩
        cases i with
        | zero =>
            intro a' b' ha hb
            cases ha
            cases hb
            exact hhead
        | succ i => exact hrest i
      · intro ⟨hlength, hall⟩
        exact ⟨hall 0 a b rfl rfl, hlength, fun i => hall (i + 1)⟩

/-- A register that has the same entries in another order leaves the key as it
is. -/
theorem key_reordered {r : Register} (h : a.requirements.entries.Perm r.entries) :
    { a with requirements := r }.key = a.key := by
  rw [← same_iff_key_eq, same_iff]
  exact ⟨rfl, rfl, Register.same_iff_perm.2 h.symm, rfl, rfl⟩

private theorem same_ofList_iff {xs ys : List (Category × String)} :
    { a with requirements := .ofList xs }.same { a with requirements := .ofList ys } = true ↔
      ∀ c, lastGiven xs c = lastGiven ys c := by
  rw [same_iff, Register.same_iff_get?]
  simp only [Register.get?_ofList, true_and, and_true]

/-! ## The comparison -/

/-- Given screens are compared by their content.

* Two of them are the same exactly if their keys are equal, and exactly if they
  come to the same screen.
* To be the same is an equivalence.
* The order in which the requirements are given makes no difference; of several
  descriptions of one category only the last does.
* Two given flows are the same exactly if they are of one length and the same
  screen by screen, exactly if their keys are equal, and exactly if they come to the
  same flow. -/
theorem compared_by_content :
    (∀ a b : Screen.Given, (a.same b = true ↔ a.key = b.key) ∧
      (a.same b = true ↔ a.toScreen = b.toScreen)) ∧
    Equivalence (fun a b : Screen.Given => a.same b = true) ∧
    (∀ (a b : Screen.Given) (r : Register), a.requirements.entries.Perm r.entries →
      { a with requirements := r }.same b = a.same b ∧
      b.same { a with requirements := r } = b.same a) ∧
    (∀ (a : Screen.Given) (xs ys : List (Category × String)),
      { a with requirements := .ofList xs }.same { a with requirements := .ofList ys } = true ↔
        ∀ c, lastGiven xs c = lastGiven ys c) ∧
    ∀ f g : Flow.Given,
      (f.same g = true ↔ f.screens.length = g.screens.length ∧
        ∀ (i : Nat) (a b : Screen.Given), f.screens[i]? = some a → g.screens[i]? = some b →
          a.same b = true) ∧
      (f.same g = true ↔ f.key = g.key) ∧ (f.same g = true ↔ f.toFlow = g.toFlow) := by
  refine ⟨fun a b => ⟨same_iff_key_eq, same_iff_toScreen_eq⟩,
    ⟨fun a => same_iff_key_eq.2 rfl, fun {a b} hab => ?_, fun {a b c} hab hbc => ?_⟩,
    fun a b r hperm => ⟨same_congr (key_reordered hperm) rfl, same_congr rfl (key_reordered hperm)⟩,
    fun a xs ys => same_ofList_iff,
    fun f g => ⟨sameAll_iff, sameAll_iff_map_eq fun _ _ => same_iff_key_eq, ?_⟩⟩
  · exact same_iff_key_eq.2 (same_iff_key_eq.1 hab).symm
  · exact same_iff_key_eq.2 ((same_iff_key_eq.1 hab).trans (same_iff_key_eq.1 hbc))
  · have hscreens : f.same g = true ↔ f.toFlow.screens = g.toFlow.screens :=
      sameAll_iff_map_eq fun _ _ => same_iff_toScreen_eq
    rw [hscreens, Flow.mk.injEq]

/-- Screens whose requirements are given in two orders, and one of them twice, are
the same. A register turned round makes no difference to what its screen is the same
as. -/
theorem homes_compared_by_content :
    let twice : Register := .ofList [(.security, "2FA"), (.performance, "slow"),
      (.performance, "fast")]
    let once : Register := .ofList [(.performance, "fast"), (.security, "2FA")]
    ({ name := "Home", requirements := twice } : Given).same
      { name := "Home", requirements := once } = true ∧
    twice.entries.Perm once.entries ∧
    ∀ b : Given, ({ name := "Home", requirements := once } : Given).same b =
      ({ name := "Home", requirements := twice } : Given).same b := by
  intro twice once
  obtain ⟨-, -, hreordered, hlast, -⟩ := compared_by_content
  have hperm : twice.entries.Perm once.entries := List.Perm.swap _ _ _
  refine ⟨(hlast { name := "Home" } _ _).2 fun c => ?_, hperm, fun b => ?_⟩
  · cases c <;> rfl
  · exact (hreordered { name := "Home", requirements := twice } b once hperm).1

end Screen.Given

end Storyboard
