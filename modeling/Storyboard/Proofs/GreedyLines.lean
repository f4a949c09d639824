import Mathlib.Data.List.Chain
import Mathlib.Data.List.Forall2
import Storyboard.Proofs.Wrapping

/-!
# Wrapped lines are filled greedily

Setting pieces into lines cuts the list of pieces into groups, one for each
line, and a line is its group with single spaces between the pieces. What there
is to say about wrapped lines is said of the groups first: together they are the
pieces in order, each fits on a line, and the first piece of a group would not
have fitted on the line before it. The pieces hold no spaces, so the groups can
be read off the lines again, and nothing of this is lost when only the lines are
seen.

## Main results

* `Text.Filled` — pieces cut into groups that are filled greedily.
* `Text.fillLines_filled` — setting pieces into lines fills them greedily.
* `Text.spacedPieces_joined`, `Text.tight_joined` — the lines of groups.
* `Text.wrap_greedy` — the lines of a wrapped text.
-/

namespace Storyboard.Text

/-! ## Groups of pieces -/

/-- The line of a group: its pieces with single spaces between them. -/
def joined (group : List (List Char)) : List Char := [' '].intercalate group

@[simp] theorem joined_singleton (p : List Char) : joined [p] = p :=
  List.intercalate_singleton

theorem joined_cons_cons (p q : List Char) (group : List (List Char)) :
    joined (p :: q :: group) = p ++ ' ' :: joined (q :: group) := by
  simp [joined, List.intercalate_cons_cons]

theorem joined_append {group other : List (List Char)} (hgroup : group ≠ []) (hother : other ≠ []) :
    joined (group ++ other) = joined group ++ ' ' :: joined other := by
  induction group with
  | nil => exact absurd rfl hgroup
  | cons p group ih =>
      cases group with
      | nil =>
          cases other with
          | nil => exact absurd rfl hother
          | cons q other => simp [joined_cons_cons]
      | cons r group =>
          have hrest := ih (List.cons_ne_nil r group)
          simp only [List.cons_append] at hrest ⊢
          rw [joined_cons_cons, hrest, joined_cons_cons, List.append_assoc, List.cons_append]

private theorem joined_concat {group : List (List Char)} (hne : group ≠ []) (p : List Char) :
    joined (group ++ [p]) = joined group ++ ' ' :: p := by
  rw [joined_append hne (List.cons_ne_nil p []), joined_singleton]

/-- That groups are pieces set into lines of at most `width` characters: each
line takes pieces as long as they fit. Only where there are no pieces is a group
empty. -/
structure Filled (width : Nat) (pieces : List (List Char)) (groups : List (List (List Char))) :
    Prop where
  flatten : groups.flatten = pieces
  ne_nil : pieces ≠ [] → ∀ group ∈ groups, group ≠ []
  fits : ∀ group ∈ groups, (joined group).length ≤ width
  greedy : groups.IsChain fun a b =>
    ∃ p, b.head? = some p ∧ width < (joined a).length + 1 + p.length

/-- Setting pieces into lines fills the lines greedily, from a line that was
begun with some pieces on. -/
theorem fillLines_filled {width : Nat} :
    ∀ (ps begun : List (List Char)), begun ≠ [] → (joined begun).length ≤ width →
      (∀ p ∈ ps, p.length ≤ width) →
      ∃ first rest, begun <+: first ∧
        fillLines width (joined begun) ps = (first :: rest).map joined ∧
        Filled width (begun ++ ps) (first :: rest) := by
  intro ps
  induction ps with
  | nil =>
      intro begun hbegun hfits _
      refine ⟨begun, [], List.prefix_refl _, rfl, by simp, ?_, ?_, List.isChain_singleton _⟩
      · exact fun _ => by simpa using hbegun
      · simpa using hfits
  | cons p ps ih =>
      intro begun hbegun hfits hps
      have hp : p.length ≤ width := hps p List.mem_cons_self
      have hrest : ∀ q ∈ ps, q.length ≤ width := fun q hq => hps q (List.mem_cons_of_mem p hq)
      unfold fillLines
      split
      · rename_i hroom
        have hjoined := joined_concat hbegun p
        obtain ⟨first, rest, hprefix, hlines, hfilled⟩ := ih (begun ++ [p]) (by simp)
          (by rw [hjoined, List.length_append, List.length_cons]; omega) hrest
        rw [hjoined] at hlines
        rw [List.append_assoc] at hfilled
        exact ⟨first, rest, (List.prefix_append begun [p]).trans hprefix, hlines, hfilled⟩
      · rename_i hroom
        obtain ⟨first, rest, hprefix, hlines, hfilled⟩ := ih [p] (by simp) (by simpa using hp) hrest
        rw [joined_singleton] at hlines
        have hhead : first.head? = some p := by
          obtain ⟨tail, rfl⟩ := hprefix
          rfl
        refine ⟨begun, first :: rest, List.prefix_refl _, by rw [hlines]; rfl, ?_, ?_, ?_, ?_⟩
        · rw [List.flatten_cons, hfilled.flatten, List.singleton_append]
        · exact fun _ => List.forall_mem_cons.2 ⟨hbegun, hfilled.ne_nil (List.cons_ne_nil p ps)⟩
        · exact List.forall_mem_cons.2 ⟨hfits, hfilled.fits⟩
        · exact List.isChain_cons_cons.2 ⟨⟨p, hhead, by omega⟩, hfilled.greedy⟩

/-- Setting any pieces that fit on lines fills these greedily. -/
theorem setLines_filled {width : Nat} {ps : List (List Char)} (hps : ∀ p ∈ ps, p.length ≤ width) :
    ∃ groups, setLines width ps = groups.map joined ∧ Filled width ps groups := by
  cases ps with
  | nil =>
      exact ⟨[[]], rfl, rfl, fun hne => absurd rfl hne, by simp [joined], List.isChain_singleton _⟩
  | cons p ps =>
      have hp : (joined [p]).length ≤ width := by simpa using hps p List.mem_cons_self
      obtain ⟨first, rest, -, hlines, hfilled⟩ := fillLines_filled ps [p] (List.cons_ne_nil p [])
        hp fun q hq => hps q (List.mem_cons_of_mem p hq)
      rw [joined_singleton] at hlines
      exact ⟨first :: rest, hlines, hfilled⟩

/-! ## The lines of groups -/

/-- What stands between the spaces of a line. -/
def spacedPieces (line : List Char) : List (List Char) :=
  (line.splitOn ' ').filter (· ≠ [])

/-- Whether a line has no space at either end and no two spaces side by side. -/
def Tight (line : List Char) : Prop :=
  line.head? ≠ some ' ' ∧ line.getLast? ≠ some ' ' ∧ line.IsChain fun a b => ¬(a = ' ' ∧ b = ' ')

/-- Whether a piece can be told from its neighbours on a line. -/
def Solid (p : List Char) : Prop := p ≠ [] ∧ ' ' ∉ p

theorem Solid.tight {p : List Char} (h : Solid p) : Tight p := by
  refine ⟨fun hhead => h.2 (List.mem_of_head? hhead), fun hlast => h.2 (List.mem_of_getLast? hlast),
    List.Pairwise.isChain (List.pairwise_of_forall_mem_list fun a ha b _ hab => h.2 ?_)⟩
  exact hab.1 ▸ ha

private theorem joined_ne_nil {group : List (List Char)} (hne : group ≠ [])
    (h : ∀ p ∈ group, Solid p) : joined group ≠ [] := by
  cases group with
  | nil => exact absurd rfl hne
  | cons p group =>
      cases group with
      | nil => simpa using (h p List.mem_cons_self).1
      | cons q group => simp [joined_cons_cons]

/-- The line of a group has single spaces, and only between pieces. -/
theorem tight_joined {group : List (List Char)} (h : ∀ p ∈ group, Solid p) :
    Tight (joined group) := by
  induction group with
  | nil => exact ⟨by simp [joined], by simp [joined], List.isChain_nil⟩
  | cons p group ih =>
      have hp : Solid p := h p List.mem_cons_self
      have hrest : ∀ q ∈ group, Solid q := fun q hq => h q (List.mem_cons_of_mem p hq)
      cases group with
      | nil => simpa using hp.tight
      | cons q group =>
          obtain ⟨hhead, hlast, hchain⟩ := ih hrest
          obtain ⟨hphead, hplast, hpchain⟩ := hp.tight
          have hne := joined_ne_nil (List.cons_ne_nil q group) hrest
          rw [joined_cons_cons]
          refine ⟨?_, ?_, ?_⟩
          · rwa [List.head?_append_of_ne_nil _ hp.1]
          · rwa [List.getLast?_append_cons, List.getLast?_cons_of_ne_nil hne]
          · refine List.isChain_append.2 ⟨hpchain, List.isChain_cons.2 ⟨?_, hchain⟩, ?_⟩
            · rintro c hc ⟨-, rfl⟩
              exact hhead hc
            · rintro c hc d - ⟨rfl, -⟩
              exact hplast hc

/-- The pieces of a group can be read off its line. -/
theorem spacedPieces_joined {group : List (List Char)} (h : ∀ p ∈ group, Solid p) :
    spacedPieces (joined group) = group := by
  cases group with
  | nil => simp [spacedPieces, joined]
  | cons q group =>
      rw [spacedPieces, joined, List.splitOn_intercalate ' ' (fun p hp => (h p hp).2)
        (List.cons_ne_nil q group)]
      exact List.filter_eq_self.2 fun p hp => by simpa using (h p hp).1

private theorem filter_joined {group : List (List Char)} (h : ∀ p ∈ group, Solid p) :
    (joined group).filter (· ≠ ' ') = group.flatten := by
  induction group with
  | nil => rfl
  | cons p group ih =>
      have hp : p.filter (· ≠ ' ') = p := by
        refine List.filter_eq_self.2 fun c hc => ?_
        simpa using fun hspace : c = ' ' => (h p List.mem_cons_self).2 (hspace ▸ hc)
      cases group with
      | nil => simpa using hp
      | cons q group =>
          have hrest := ih fun r hr => h r (List.mem_cons_of_mem p hr)
          rw [joined_cons_cons, List.filter_append, hp, List.filter_cons_of_neg (by simp), hrest]
          rfl

/-! ## The lines of a text -/

/-- The pieces of a text are its words, each cut every so many characters. -/
theorem forall₂_cutEvery {w : Nat} (hw : 0 < w) (cs : List Char) :
    List.Forall₂ (CutEvery w) (words cs) ((words cs).map (chop w)) := by
  rw [List.forall₂_map_right_iff]
  exact List.forall₂_same.2 fun word hword =>
    chop_cutEvery hw (ne_nil_of_mem_words word hword)

/-- A piece fits on a line and can be told from its neighbours there. -/
theorem solid_of_mem_pieces {w : Nat} (hw : 0 < w) {cs p : List Char} (hp : p ∈ pieces w cs) :
    Solid p ∧ p.length ≤ w := by
  obtain ⟨hpos, hle⟩ := length_of_mem_pieces hw hp
  refine ⟨⟨List.length_pos_iff.1 hpos, fun hspace => ?_⟩, hle⟩
  have hletter := isBlank_of_mem_pieces p hp ' ' hspace
  revert hletter
  decide

private theorem flatten_pieces {w : Nat} (hw : 0 < w) (cs : List Char) :
    (pieces w cs).flatten = cs.filter (!isBlank ·) := by
  have hwords : ((words cs).map fun word => (chop w word).flatten) = words cs := by
    refine (List.map_congr_left fun word hword => ?_).trans (List.map_id _)
    exact (chop_cutEvery hw (ne_nil_of_mem_words word hword)).flatten
  rw [← flatten_words, pieces, List.flatMap_def, List.flatten_flatten, List.map_map]
  exact congrArg List.flatten hwords

theorem pieces_ne_nil {w : Nat} (hw : 0 < w) {cs : List Char} (h : words cs ≠ []) :
    pieces w cs ≠ [] := by
  intro hnil
  obtain ⟨word, hword⟩ := List.exists_mem_of_ne_nil _ h
  have hletters := flatten_pieces hw cs
  rw [hnil, ← flatten_words] at hletters
  exact ne_nil_of_mem_words word hword (List.flatten_eq_nil_iff.1 hletters.symm word hword)

/-- The lines of a text are its pieces, filled greedily. -/
theorem wrap_filled (text : String) (width : Int) :
    ∃ groups, wrap text width = groups.map (fun g => String.ofList (joined g)) ∧
      Filled (lineWidth width) (pieces (lineWidth width) text.toList) groups ∧
      ∀ g ∈ groups, ∀ p ∈ g, Solid p := by
  have hpieces : ∀ p ∈ pieces (lineWidth width) text.toList, Solid p ∧ p.length ≤ lineWidth width :=
    fun p hp => solid_of_mem_pieces (lineWidth_pos width) hp
  obtain ⟨groups, hlines, hfilled⟩ := setLines_filled fun p hp => (hpieces p hp).2
  refine ⟨groups, ?_, hfilled, fun g hg p hp => (hpieces p ?_).1⟩
  · rw [wrap, hlines, List.map_map]
    rfl
  · rw [← hfilled.flatten]
    exact List.mem_flatten.2 ⟨g, hg, hp⟩

/-- A text without words wraps to one empty line. -/
theorem wrap_of_words_eq_nil {text : String} (width : Int) (h : words text.toList = []) :
    wrap text width = [""] := by
  simp [wrap, pieces, h, setLines]

/-- The lines of any other text show something. -/
theorem exists_letter_of_mem_wrap {text : String} {width : Int} (h : words text.toList ≠ [])
    {l : String} (hl : l ∈ wrap text width) : ∃ c ∈ l.toList, isBlank c = false := by
  obtain ⟨groups, hlines, hfilled, hsolid⟩ := wrap_filled text width
  have hline := hl
  rw [hlines] at hline
  obtain ⟨g, hg, rfl⟩ := List.mem_map.1 hline
  have hgroup : g ≠ [] := hfilled.ne_nil (pieces_ne_nil (lineWidth_pos width) h) g hg
  obtain ⟨c, rest, hcons⟩ := List.exists_cons_of_ne_nil (joined_ne_nil hgroup (hsolid g hg))
  have hc : c ∈ (String.ofList (joined g)).toList := by simp [hcons]
  refine ⟨c, hc, Bool.eq_false_iff.2 fun hblank => ?_⟩
  -- the line would begin with a space, the only blank that a line can have
  apply (tight_joined (hsolid g hg)).1
  rw [hcons, List.head?_cons, eq_space_of_mem_wrap hl hc hblank]

private theorem wrap_eq_singleton_empty_iff {text : String} {width : Int} :
    wrap text width = [""] ↔ words text.toList = [] := by
  refine ⟨fun hempty => ?_, wrap_of_words_eq_nil width⟩
  by_contra hwords
  have hline : "" ∈ wrap text width := by rw [hempty]; exact List.mem_singleton_self _
  obtain ⟨c, hc, -⟩ := exists_letter_of_mem_wrap hwords hline
  simp at hc

/-- Wrapping is greedy. No line is longer than the width, or has a space at an
end or two side by side. A text of blanks wraps to one empty line, and no other
text has a blank line. The lines have all characters of the text but its blanks,
in order. Their pieces are the words of the text one after the other, each cut
every so many characters as fit on a line, so that a line ends or has a space
wherever a word ends, and within a word only at these cuts. And a line ends only
where the next piece would not fit on it. -/
theorem wrap_greedy (text : String) (width : Int) :
    let w := lineWidth width
    let lines := wrap text width
    (∀ l ∈ lines, l.length ≤ w) ∧
    (∀ l ∈ lines, Tight l.toList) ∧
    (lines = [""] ↔ ∀ c ∈ text.toList, isBlank c = true) ∧
    (∀ l ∈ lines, (∀ c ∈ l.toList, isBlank c = true) → lines = [""]) ∧
    (lines.flatMap fun l => l.toList.filter (· ≠ ' ')) = text.toList.filter (!isBlank ·) ∧
    (∃ cuts, List.Forall₂ (CutEvery w) ((text.toList.splitOnP isBlank).filter (· ≠ [])) cuts ∧
      (lines.flatMap fun l => spacedPieces l.toList) = cuts.flatten) ∧
    lines.IsChain fun a b =>
      ∃ p, (spacedPieces b.toList).head? = some p ∧ w < a.length + 1 + p.length := by
  dsimp only
  have hw := lineWidth_pos width
  obtain ⟨groups, hlines, hfilled, hsolid⟩ := wrap_filled text width
  have hread : ∀ g ∈ groups, spacedPieces (joined g) = g :=
    fun g hg => spacedPieces_joined (hsolid g hg)
  have hgroup : ∀ l ∈ wrap text width, ∃ g ∈ groups, l.toList = joined g := by
    intro l hl
    rw [hlines] at hl
    obtain ⟨g, hg, rfl⟩ := List.mem_map.1 hl
    exact ⟨g, hg, String.toList_ofList⟩
  rw [← words_eq_splitOnP, ← words_eq_nil_iff]
  refine ⟨fun l hl => ?_, fun l hl => ?_, wrap_eq_singleton_empty_iff, fun l hl hblank => ?_, ?_,
    ⟨_, forall₂_cutEvery hw _, ?_⟩, ?_⟩
  · obtain ⟨g, hg, hl⟩ := hgroup l hl
    rw [← String.length_toList, hl]
    exact hfilled.fits g hg
  · obtain ⟨g, hg, hl⟩ := hgroup l hl
    rw [hl]
    exact tight_joined (hsolid g hg)
  · refine wrap_eq_singleton_empty_iff.2 (by_contra fun hwords => ?_)
    obtain ⟨c, hc, hletter⟩ := exists_letter_of_mem_wrap hwords hl
    rw [hblank c hc] at hletter
    cases hletter
  · rw [hlines, List.flatMap_map, ← flatten_pieces hw, ← hfilled.flatten, List.flatten_flatten,
      ← List.flatMap_def]
    refine List.flatMap_congr fun g hg => ?_
    rw [String.toList_ofList]
    exact filter_joined (hsolid g hg)
  · rw [← List.flatMap_def, ← pieces, ← hfilled.flatten, hlines, List.flatMap_map,
      ← List.flatMap_id]
    refine List.flatMap_congr fun g hg => ?_
    rw [String.toList_ofList]
    exact hread g hg
  · rw [hlines, List.isChain_map]
    refine hfilled.greedy.imp_of_mem_imp fun a b _ hb hnext => ?_
    rw [String.toList_ofList, hread b hb, String.length_ofList]
    exact hnext

/-- Words of several lengths, blanks of several kinds, lines of five characters. -/
example : wrap " ab\tc\u00a0defghijklm no" 5 = ["ab c", "defgh", "ijklm", "no"] := by
  decide +kernel

end Storyboard.Text
