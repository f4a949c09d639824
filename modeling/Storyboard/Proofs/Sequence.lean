import Mathlib.Data.List.DropRight
import Mathlib.Data.List.Nodup
import Mathlib.Data.List.Perm.Basic
import Mathlib.Order.Lattice
import Storyboard.Sequence

/-!
# Greatest elements, entries, parts and dropped ends

The facts about `Sequence.greatest`, `Sequence.distinct`, `Sequence.put` and
`Sequence.dropEndWhile` that measuring, ordering and trimming rest on.

## Main results

* `Sequence.le_foldl_max`, `Sequence.le_greatest`, `Sequence.greatest_mem` — a
  maximum bounds what it is taken over, and is attained.
* `Sequence.distinct_pairwise` — what is left without repetitions keeps the order
  of first occurrences.
* `Sequence.distinct_append` — the repetitions in two lists, one after the other.
* `Sequence.mem_put_iff`, `Sequence.lookup_put` — what is kept under keys.
* `Sequence.getElem?_flatMap_iff` — where the elements of a list stand that is
  put together of parts.
* `Sequence.flatMap_filter_perm` — a list sorted into parts by a key loses
  nothing.
* `Sequence.getElem?_dropEndWhile_iff`, `Sequence.getD_dropEndWhile` — what is not
  dropped stays in its place, and a list reads the same without an end of default
  values.
-/

namespace Storyboard.Sequence

/-! ## Maxima -/

/-- A running maximum bounds what it starts from and what it runs over. -/
theorem le_foldl_max {α : Type} [LinearOrder α] (ns : List α) :
    ∀ a : α, a ≤ ns.foldl max a ∧ ∀ n ∈ ns, n ≤ ns.foldl max a := by
  induction ns with
  | nil =>
      intro a
      exact ⟨le_refl a, by simp⟩
  | cons m ns ih =>
      intro a
      obtain ⟨hstart, hrest⟩ := ih (max a m)
      refine ⟨le_trans (le_max_left a m) hstart, ?_⟩
      intro n hn
      rcases List.mem_cons.1 hn with rfl | hn
      · exact le_trans (le_max_right a n) hstart
      · exact hrest n hn

/-- A running maximum is what it starts from or one of what it runs over. -/
theorem foldl_max_mem {α : Type} [LinearOrder α] (ns : List α) :
    ∀ a : α, ns.foldl max a = a ∨ ns.foldl max a ∈ ns := by
  induction ns with
  | nil =>
      intro a
      exact Or.inl rfl
  | cons m ns ih =>
      intro a
      rw [List.foldl_cons]
      rcases ih (max a m) with hstart | hrest
      · rw [hstart]
        rcases le_total m a with hle | hle
        · exact Or.inl (max_eq_left hle)
        · exact Or.inr (by rw [max_eq_right hle]; exact List.mem_cons_self)
      · exact Or.inr (List.mem_cons_of_mem m hrest)

theorem le_greatest {ns : List Int} {n : Int} (h : n ∈ ns) : n ≤ greatest ns := by
  cases ns with
  | nil => simp at h
  | cons m ns =>
      rcases List.mem_cons.1 h with rfl | h
      · exact (le_foldl_max ns n).1
      · exact (le_foldl_max ns m).2 n h

theorem greatest_mem {ns : List Int} (h : ns ≠ []) : greatest ns ∈ ns := by
  cases ns with
  | nil => exact absurd rfl h
  | cons m ns =>
      rcases foldl_max_mem ns m with hfirst | hrest
      · exact List.mem_cons.2 (Or.inl hfirst)
      · exact List.mem_cons_of_mem m hrest

/-! ## Order -/

/-- The numbers of a numbered list increase. -/
theorem zipIdx_pairwise {α : Type} (xs : List α) : xs.zipIdx.Pairwise fun a b => a.2 < b.2 := by
  rw [← List.pairwise_map (f := Prod.snd) (R := (· < ·)), List.zipIdx_map_snd]
  exact List.pairwise_lt_range'

theorem distinct_sublist {α : Type} [DecidableEq α] (xs : List α) : (distinct xs).Sublist xs := by
  induction xs with
  | nil => exact List.Sublist.refl _
  | cons x xs ih => exact (List.filter_sublist.trans ih).cons_cons x

/-- Without its repetitions, a list is in the order of first occurrences. -/
theorem distinct_pairwise {α : Type} [DecidableEq α] [BEq α] [LawfulBEq α]
    (xs : List α) :
    (distinct xs).Pairwise fun a b => xs.idxOf a < xs.idxOf b := by
  induction xs with
  | nil => exact List.Pairwise.nil
  | cons x xs ih =>
      have hlater : ∀ y ≠ x, (x :: xs).idxOf y = xs.idxOf y + 1 := fun y hy =>
        List.idxOf_cons_ne xs (Ne.symm hy)
      rw [distinct, List.pairwise_cons]
      constructor
      · intro y hy
        have hne : y ≠ x := by simpa using (List.mem_filter.1 hy).2
        rw [List.idxOf_cons_self, hlater y hne]
        exact Nat.succ_pos _
      · refine (ih.filter _).imp_of_mem fun {a b} ha hb hab => ?_
        have hax : a ≠ x := by simpa using (List.mem_filter.1 ha).2
        have hbx : b ≠ x := by simpa using (List.mem_filter.1 hb).2
        rw [hlater a hax, hlater b hbx]
        exact Nat.succ_lt_succ hab

/-- Without repetitions, a list and what is put behind it: of the latter only
what the list does not have. -/
theorem distinct_append {α : Type} [DecidableEq α] (xs ys : List α) :
    distinct (xs ++ ys) = distinct xs ++ (distinct ys).filter (· ∉ xs) := by
  induction xs with
  | nil => simp [distinct]
  | cons x xs ih =>
      rw [List.cons_append, distinct, distinct, ih, List.filter_append, List.filter_filter,
        List.cons_append]
      simp [not_or]

theorem distinct_of_nodup {α : Type} [DecidableEq α] {xs : List α} (h : xs.Nodup) :
    distinct xs = xs := by
  induction xs with
  | nil => rfl
  | cons x xs ih =>
      have hx := List.nodup_cons.1 h
      rw [distinct, ih hx.2, List.filter_eq_self.2]
      intro y hy
      exact decide_eq_true fun heq => hx.1 (heq ▸ hy)

theorem distinct_map {α β : Type} [DecidableEq α] [DecidableEq β] {f : α → β}
    (hf : Function.Injective f) (xs : List α) : distinct (xs.map f) = (distinct xs).map f := by
  induction xs with
  | nil => rfl
  | cons x xs ih =>
      rw [List.map_cons, distinct, distinct, ih, List.map_cons, List.filter_map]
      congr 2
      apply List.filter_congr
      intro y _
      simp [hf.eq_iff]

/-- A list of one thing, repeated. -/
theorem distinct_of_forall_eq {α : Type} [DecidableEq α] {d : α} {xs : List α} (hxs : xs ≠ [])
    (h : ∀ x ∈ xs, x = d) : distinct xs = [d] := by
  cases xs with
  | nil => exact absurd rfl hxs
  | cons x xs =>
      rw [distinct, h x List.mem_cons_self, List.filter_eq_nil_iff.2]
      intro y hy hne
      exact of_decide_eq_true hne (h y (List.mem_cons_of_mem x (mem_distinct.1 hy)))

/-- The repetitions in a list put together of parts that have nothing in common. -/
theorem distinct_flatMap {α κ : Type} [DecidableEq α] {f : κ → List α} {ks : List κ}
    (h : ks.Pairwise fun i j => ∀ x ∈ f i, x ∉ f j) :
    distinct (ks.flatMap f) = ks.flatMap fun k => distinct (f k) := by
  induction ks with
  | nil => rfl
  | cons k ks ih =>
      obtain ⟨hfirst, hrest⟩ := List.pairwise_cons.1 h
      rw [List.flatMap_cons, distinct_append, List.filter_eq_self.2, ih hrest, List.flatMap_cons]
      intro x hx
      obtain ⟨j, hj, hmem⟩ := List.mem_flatMap.1 (mem_distinct.1 hx)
      exact decide_eq_true fun hk => hfirst j hj x hk hmem

/-! ## Entries in order of insertion -/

section Entries

variable {κ α : Type} [DecidableEq κ]

theorem lookup_cons_eq (e : κ × α) (es : List (κ × α)) (j : κ) :
    (e :: es).lookup j = if j = e.1 then some e.2 else es.lookup j := by
  rw [List.lookup_cons]
  by_cases hj : j = e.1
  · rw [if_pos hj, beq_iff_eq.2 hj]
  · rw [if_neg hj, beq_false_of_ne hj]

/-- What was kept under a key is looked up there, and nothing else changes. -/
theorem lookup_put (k : κ) (a : α) (es : List (κ × α)) (j : κ) :
    (put k a es).lookup j = if j = k then some a else es.lookup j := by
  unfold put
  induction es with
  | nil => rw [amend, lookup_cons_eq]
  | cons e es ih =>
      unfold amend
      by_cases hk : e.1 = k
      · rw [if_pos hk, lookup_cons_eq, lookup_cons_eq, hk]
        by_cases hj : j = k
        · rw [if_pos hj, if_pos hj]
        · rw [if_neg hj, if_neg hj, if_neg hj]
      · rw [if_neg hk, lookup_cons_eq, lookup_cons_eq, ih]
        by_cases hj : j = k
        · have hother : j ≠ e.1 := fun h => hk (h.symm.trans hj)
          rw [if_neg hother, if_pos hj, if_pos hj]
        · rw [if_neg hj, if_neg hj]

/-- Under distinct keys, a new entry takes the place of the one with its key. -/
theorem mem_put_iff {k : κ} {a : α} {es : List (κ × α)} (h : (es.map Prod.fst).Nodup)
    {e : κ × α} : e ∈ put k a es ↔ e = (k, a) ∨ e ∈ es ∧ e.1 ≠ k := by
  unfold put
  induction es with
  | nil => simp [amend]
  | cons d es ih =>
      have hkeys := List.nodup_cons.1 h
      unfold amend
      by_cases hk : d.1 = k
      · -- The key stands nowhere behind the entry that is replaced.
        have hlater : e ∈ es → e.1 ≠ k := fun he hsame =>
          hkeys.1 (hk ▸ hsame ▸ List.mem_map_of_mem he)
        have hfirst : e = d → ¬ e.1 ≠ k := fun he hne => hne (he ▸ hk)
        rw [if_pos hk, List.mem_cons, List.mem_cons]
        tauto
      · have hfirst : e = d → e.1 ≠ k := fun he => he ▸ hk
        rw [if_neg hk, List.mem_cons, List.mem_cons, ih hkeys.2]
        tauto

end Entries

/-! ## Parts -/

/-- An element of a list that is put together of parts stands in one of the parts,
after the parts before it. -/
theorem getElem?_flatMap_iff {α β : Type} (f : α → List β) {y : β} (xs : List α) :
    ∀ n : Nat, (xs.flatMap f)[n]? = some y ↔
      ∃ k x m, xs[k]? = some x ∧ (f x)[m]? = some y ∧
        n = ((xs.take k).flatMap f).length + m := by
  induction xs with
  | nil =>
      intro n
      simp
  | cons x xs ih =>
      intro n
      rw [List.flatMap_cons]
      constructor
      · intro h
        by_cases hn : n < (f x).length
        · rw [List.getElem?_append_left hn] at h
          exact ⟨0, x, n, rfl, h, by simp⟩
        · rw [List.getElem?_append_right (Nat.le_of_not_lt hn)] at h
          obtain ⟨k, z, m, hk, hm, hplace⟩ := (ih _).1 h
          refine ⟨k + 1, z, m, hk, hm, ?_⟩
          rw [List.take_succ_cons, List.flatMap_cons, List.length_append]
          omega
      · rintro ⟨k, z, m, hk, hm, rfl⟩
        cases k with
        | zero =>
            cases hk
            simp [List.getElem?_append_left (List.getElem?_eq_some_iff.1 hm).1, hm]
        | succ k =>
            rw [List.take_succ_cons, List.flatMap_cons, List.length_append, Nat.add_assoc,
              List.getElem?_append_right (Nat.le_add_right _ _), Nat.add_sub_cancel_left]
            exact (ih _).2 ⟨k, z, m, hk, hm, rfl⟩

/-- A part begins where the parts before it end. -/
theorem length_take_succ_flatMap {α β : Type} (f : α → List β) {xs : List α} {k : Nat} {x : α}
    (h : xs[k]? = some x) :
    ((xs.take (k + 1)).flatMap f).length = ((xs.take k).flatMap f).length + (f x).length := by
  rw [List.take_add_one, h, List.flatMap_append, List.length_append]
  simp

/-- A list put together of what each of some keys has in it holds what has one
of these keys. -/
theorem flatMap_filter_perm {α κ : Type} [DecidableEq κ] (key : α → κ) (xs : List α)
    {ks : List κ} (h : ks.Nodup) :
    (ks.flatMap fun k => xs.filter (key · = k)).Perm (xs.filter (key · ∈ ks)) := by
  induction ks with
  | nil => simp
  | cons k ks ih =>
      obtain ⟨hk, hks⟩ := List.nodup_cons.1 h
      have hfirst : (xs.filter (key · ∈ k :: ks)).filter (key · = k) = xs.filter (key · = k) := by
        rw [List.filter_filter]
        apply List.filter_congr
        intro x _
        by_cases hx : key x = k <;> simp [hx]
      have hrest : ((xs.filter (key · ∈ k :: ks)).filter fun x => !decide (key x = k)) =
          xs.filter (key · ∈ ks) := by
        rw [List.filter_filter]
        apply List.filter_congr
        intro x _
        by_cases hx : key x = k
        · simp [hx, hk]
        · simp [hx]
      have hsplit := List.filter_append_perm (fun x => decide (key x = k))
        (xs.filter (key · ∈ k :: ks))
      rw [hfirst, hrest] at hsplit
      exact ((ih hks).append_left _).trans hsplit

/-- A list put together of parts of which one alone has elements is that part. -/
theorem flatMap_eq_of_unique {α β : Type} {f : α → List β} {xs : List α} {x : α}
    (hxs : xs.Nodup) (hx : x ∈ xs) (h : ∀ y ∈ xs, y ≠ x → f y = []) : xs.flatMap f = f x := by
  obtain ⟨before, after, rfl⟩ := List.append_of_mem hx
  have hsplit := List.nodup_append.1 hxs
  have hbefore : before.flatMap f = [] := by
    rw [List.flatMap_eq_nil_iff]
    intro y hy
    exact h y (by simp [hy]) (hsplit.2.2 y hy x (by simp))
  have hafter : after.flatMap f = [] := by
    rw [List.flatMap_eq_nil_iff]
    intro y hy
    refine h y (by simp [hy]) ?_
    rintro rfl
    exact (List.nodup_cons.1 hsplit.2.1).1 hy
  rw [List.flatMap_append, List.flatMap_cons, hbefore, hafter, List.nil_append, List.append_nil]

/-- In a list put together of a part for each of some keys, the elements of one
key are its part. -/
theorem filter_flatMap_key {β κ : Type} [DecidableEq κ] (key : β → κ) {f : κ → List β}
    {ks : List κ} (hks : ks.Nodup) (hkey : ∀ k ∈ ks, ∀ x ∈ f k, key x = k) {k : κ}
    (hnone : k ∉ ks → f k = []) : (ks.flatMap f).filter (key · = k) = f k := by
  have hown : ∀ j ∈ ks, (f j).filter (key · = k) = if j = k then f j else [] := by
    intro j hj
    by_cases hjk : j = k
    · rw [if_pos hjk, List.filter_eq_self]
      intro x hx
      exact decide_eq_true ((hkey j hj x hx).trans hjk)
    · rw [if_neg hjk, List.filter_eq_nil_iff]
      intro x hx heq
      exact hjk ((hkey j hj x hx).symm.trans (of_decide_eq_true heq))
  rw [List.filter_flatMap]
  by_cases hk : k ∈ ks
  · rw [flatMap_eq_of_unique hks hk]
    · rw [hown k hk, if_pos rfl]
    · intro j hj hjk
      rw [hown j hj, if_neg hjk]
  · rw [hnone hk, List.flatMap_eq_nil_iff]
    intro j hj
    have hjk : j ≠ k := fun heq => hk (heq ▸ hj)
    rw [hown j hj, if_neg hjk]

/-! ## Ends -/

theorem dropEndWhile_eq_rdropWhile {α : Type} (p : α → Bool) (xs : List α) :
    dropEndWhile p xs = xs.rdropWhile p := rfl

/-- A list is what is left of it and a tail of what was dropped. -/
theorem exists_append_dropEndWhile {α : Type} (p : α → Bool) (xs : List α) :
    ∃ tail, xs = dropEndWhile p xs ++ tail ∧ ∀ x ∈ tail, p x = true := by
  rw [dropEndWhile_eq_rdropWhile]
  refine ⟨xs.rtakeWhile p, ?_, fun x hx => List.mem_rtakeWhile_imp hx⟩
  exact List.rdropWhile_append_rtakeWhile.symm

/-- An end is dropped behind an element that stays. -/
theorem dropEndWhile_cons {α : Type} {p : α → Bool} {x : α} (hx : p x = false) (xs : List α) :
    dropEndWhile p (x :: xs) = x :: dropEndWhile p xs := by
  simp only [dropEndWhile, List.reverse_cons, List.dropWhile_append]
  split
  · rename_i hnone
    rw [List.isEmpty_iff] at hnone
    rw [List.dropWhile_cons_of_neg (by simp [hx]), hnone]
    rfl
  · rw [List.reverse_append, List.reverse_singleton, List.singleton_append]

/-- Elements that are never dropped can be picked out after dropping as well as
before. -/
theorem filter_dropEndWhile {α : Type} {p q : α → Bool} (h : ∀ x, p x = true → q x = false)
    (xs : List α) : (dropEndWhile p xs).filter q = xs.filter q := by
  obtain ⟨tail, heq, htail⟩ := exists_append_dropEndWhile p xs
  have hnone : tail.filter q = [] :=
    List.filter_eq_nil_iff.2 fun x hx => by simp [h x (htail x hx)]
  conv_rhs => rw [heq, List.filter_append, hnone, List.append_nil]

/-- An element that is not dropped stands where it stood. -/
theorem getElem?_dropEndWhile_iff {α : Type} {p : α → Bool} {xs : List α} {x : α}
    (hx : p x = false) (n : Nat) : (dropEndWhile p xs)[n]? = some x ↔ xs[n]? = some x := by
  obtain ⟨tail, heq, htail⟩ := exists_append_dropEndWhile p xs
  have hsplit : xs[n]? = (dropEndWhile p xs ++ tail)[n]? := by rw [← heq]
  rw [hsplit]
  by_cases hn : n < (dropEndWhile p xs).length
  · rw [List.getElem?_append_left hn]
  · rw [List.getElem?_append_right (Nat.le_of_not_lt hn),
      List.getElem?_eq_none (Nat.le_of_not_lt hn)]
    constructor
    · intro hnone
      cases hnone
    · intro hsome
      rw [htail x (List.mem_of_getElem? hsome)] at hx
      cases hx

/-- A list reads the same without its end if only default values were
dropped. -/
theorem getD_dropEndWhile {α : Type} {p : α → Bool} {xs : List α} {d : α}
    (h : ∀ x ∈ xs, p x = true → x = d) (i : Nat) :
    ((dropEndWhile p xs)[i]?).getD d = (xs[i]?).getD d := by
  obtain ⟨tail, heq, htail⟩ := exists_append_dropEndWhile p xs
  have hdef : ∀ x ∈ tail, x = d := by
    intro x hx
    exact h x (heq ▸ List.mem_append_right _ hx) (htail x hx)
  by_cases hi : i < (dropEndWhile p xs).length
  · have hsame : xs[i]? = (dropEndWhile p xs)[i]? := by
      conv_lhs => rw [heq]
      exact List.getElem?_append_left hi
    rw [hsame]
  · have hpast : xs[i]? = tail[i - (dropEndWhile p xs).length]? := by
      conv_lhs => rw [heq]
      exact List.getElem?_append_right (by omega)
    rw [List.getElem?_eq_none (by omega), hpast]
    cases hx : tail[i - (dropEndWhile p xs).length]? with
    | none => rfl
    | some x => exact (hdef x (List.mem_of_getElem? hx)).symm

end Storyboard.Sequence
