import Mathlib.Tactic.ByContra
import Mathlib.Tactic.Convert
import Storyboard.Text.Utf8

/-!
# Reading undoes writing UTF-8

The bytes of a character are a lead byte and its continuation bytes. `Spells`
lists the sequences that there are, with the code points that they spell; it
says nothing of how they are read. Reading accepts exactly the sequences of
these, and they are exactly the encodings of characters. So reading finds the
text of every encoded text, and fails on all other bytes.

## Main results

* `Utf8.Spells` — the byte sequences of one character.
* `Utf8.spells_encode`, `Utf8.Spells.eq_encode` — they are the encodings of
  characters.
* `Utf8.decodeFrom_append`, `Utf8.exists_spells_of_decodeFrom` — reading takes
  one of them after the other, and nothing else.
* `Utf8.decode_eq_ok_iff` — reading and writing a whole text.
-/

namespace Storyboard

/-- What a result was changed from. -/
theorem exists_of_map_eq_ok {ε α β : Type} {x : Except ε α} {f : α → β} {y : β}
    (h : x.map f = .ok y) : ∃ z, x = .ok z ∧ y = f z := by
  cases x with
  | error e => cases h
  | ok z =>
      cases h
      exact ⟨z, rfl, rfl⟩

namespace Text.Utf8

/-! ## Sequences of one character -/

/-- Whether a byte continues a character. -/
def IsTail (b : UInt8) : Prop := 0x80 ≤ b.toNat ∧ b.toNat ≤ 0xBF

/-- The byte sequences of one character, and the code points that they spell.
Overlong forms, surrogates and what lies past the last code point are shut out
by the range of the second byte. -/
inductive Spells : List UInt8 → Nat → Prop where
  | one {a : UInt8} : a.toNat < 0x80 → Spells [a] a.toNat
  | two {a b : UInt8} : 0xC2 ≤ a.toNat → a.toNat ≤ 0xDF → IsTail b →
      Spells [a, b] ((a.toNat - 0xC0) * 64 + (b.toNat - 0x80))
  | three {a b c : UInt8} : 0xE0 ≤ a.toNat → a.toNat ≤ 0xEF → IsTail b →
      (a.toNat = 0xE0 → 0xA0 ≤ b.toNat) → (a.toNat = 0xED → b.toNat ≤ 0x9F) → IsTail c →
      Spells [a, b, c] (((a.toNat - 0xE0) * 64 + (b.toNat - 0x80)) * 64 + (c.toNat - 0x80))
  | four {a b c d : UInt8} : 0xF0 ≤ a.toNat → a.toNat ≤ 0xF4 → IsTail b →
      (a.toNat = 0xF0 → 0x90 ≤ b.toNat) → (a.toNat = 0xF4 → b.toNat ≤ 0x8F) → IsTail c →
      IsTail d →
      Spells [a, b, c, d] ((((a.toNat - 0xF0) * 64 + (b.toNat - 0x80)) * 64 +
        (c.toNat - 0x80)) * 64 + (d.toNat - 0x80))

theorem ofNat_eq_of_toNat {b : UInt8} {n : Nat} (h : n = b.toNat) : UInt8.ofNat n = b := by
  rw [h, UInt8.ofNat_toNat]

/-- Only code points of characters are spelled. -/
theorem Spells.valid {bytes : List UInt8} {n : Nat} (h : Spells bytes n) : n.isValidChar := by
  cases h <;> simp only [IsTail, Nat.isValidChar] at * <;> omega

/-- What spells a code point is the encoding of its character. -/
theorem Spells.eq_encode {bytes : List UInt8} {n : Nat} (h : Spells bytes n) :
    bytes = String.utf8EncodeChar (Char.ofNat n) := by
  have hcode : (Char.ofNat n).val.toNat = n := by
    rw [Char.ofNat, dif_pos h.valid]
    rfl
  unfold String.utf8EncodeChar
  dsimp only
  rw [hcode]
  cases h with
  | @one a ha => rw [if_pos (by omega), ofNat_eq_of_toNat (b := a) rfl]
  | @two a b ha ha' hb =>
      have hb' : 0x80 ≤ b.toNat ∧ b.toNat ≤ 0xBF := hb
      rw [if_neg (by omega), if_pos (by omega), ofNat_eq_of_toNat (b := a) (by omega),
        ofNat_eq_of_toNat (b := b) (by omega)]
  | @three a b c ha ha' hb hlow hhigh hc =>
      have hb' : 0x80 ≤ b.toNat ∧ b.toNat ≤ 0xBF := hb
      have hc' : 0x80 ≤ c.toNat ∧ c.toNat ≤ 0xBF := hc
      rw [if_neg (by omega), if_neg (by omega), if_pos (by omega),
        ofNat_eq_of_toNat (b := a) (by omega), ofNat_eq_of_toNat (b := b) (by omega),
        ofNat_eq_of_toNat (b := c) (by omega)]
  | @four a b c d ha ha' hb hlow hhigh hc hd =>
      have hb' : 0x80 ≤ b.toNat ∧ b.toNat ≤ 0xBF := hb
      have hc' : 0x80 ≤ c.toNat ∧ c.toNat ≤ 0xBF := hc
      have hd' : 0x80 ≤ d.toNat ∧ d.toNat ≤ 0xBF := hd
      rw [if_neg (by omega), if_neg (by omega), if_neg (by omega),
        ofNat_eq_of_toNat (b := a) (by omega), ofNat_eq_of_toNat (b := b) (by omega),
        ofNat_eq_of_toNat (b := c) (by omega), ofNat_eq_of_toNat (b := d) (by omega)]

/-- The encoding of a character spells its code point. -/
theorem spells_encode (c : Char) : Spells (String.utf8EncodeChar c) c.toNat := by
  have hvalid : c.toNat < 0xD800 ∨ 0xDFFF < c.toNat ∧ c.toNat < 0x110000 := c.valid
  have hbyte : ∀ n : Nat, n < 256 → (UInt8.ofNat n).toNat = n := fun n h =>
    UInt8.toNat_ofNat_of_lt' h
  have hcode : c.val.toNat = c.toNat := rfl
  unfold String.utf8EncodeChar
  dsimp only
  rw [hcode]
  generalize c.toNat = n at hvalid
  -- In each case the bytes are taken as numbers, and the digits of `n` to base 64 add up to it.
  split
  · have h := Spells.one (a := UInt8.ofNat n) (by rw [hbyte n (by omega)]; omega)
    rwa [hbyte n (by omega)] at h
  · split
    · have ha := hbyte (n / 64 % 0x20 + 0xc0) (by omega)
      have hb := hbyte (n % 0x40 + 0x80) (by omega)
      have h := Spells.two (a := UInt8.ofNat (n / 64 % 0x20 + 0xc0))
        (b := UInt8.ofNat (n % 0x40 + 0x80)) (by omega) (by omega) ⟨by omega, by omega⟩
      rw [ha, hb] at h
      convert h using 1
      omega
    · split
      · have ha := hbyte (n / 4096 % 0x10 + 0xe0) (by omega)
        have hb := hbyte (n / 64 % 0x40 + 0x80) (by omega)
        have hc := hbyte (n % 0x40 + 0x80) (by omega)
        have h := Spells.three (a := UInt8.ofNat (n / 4096 % 0x10 + 0xe0))
          (b := UInt8.ofNat (n / 64 % 0x40 + 0x80)) (c := UInt8.ofNat (n % 0x40 + 0x80))
          (by omega) (by omega) ⟨by omega, by omega⟩ (by omega) (by omega) ⟨by omega, by omega⟩
        rw [ha, hb, hc] at h
        convert h using 1
        omega
      · have ha := hbyte (n / 262144 % 0x08 + 0xf0) (by omega)
        have hb := hbyte (n / 4096 % 0x40 + 0x80) (by omega)
        have hc := hbyte (n / 64 % 0x40 + 0x80) (by omega)
        have hd := hbyte (n % 0x40 + 0x80) (by omega)
        have h := Spells.four (a := UInt8.ofNat (n / 262144 % 0x08 + 0xf0))
          (b := UInt8.ofNat (n / 4096 % 0x40 + 0x80)) (c := UInt8.ofNat (n / 64 % 0x40 + 0x80))
          (d := UInt8.ofNat (n % 0x40 + 0x80)) (by omega) (by omega) ⟨by omega, by omega⟩
          (by omega) (by omega) ⟨by omega, by omega⟩ ⟨by omega, by omega⟩
        rw [ha, hb, hc, hd] at h
        convert h using 1
        omega

/-! ## Reading a character -/

variable {pos : Nat} {p : Partial} {a b : UInt8} {bytes rest : List UInt8} {cs : List Char}

private theorem lead?_of_two (h : 0xC2 ≤ a.toNat) (h' : a.toNat ≤ 0xDF) :
    lead? a.toNat = some (1, 0x80, 0xBF, a.toNat - 0xC0) := by
  rw [lead?, if_pos ⟨h, h'⟩]

private theorem lead?_of_three (h : 0xE0 ≤ a.toNat) (h' : a.toNat ≤ 0xEF) :
    lead? a.toNat = some (2, if a.toNat = 0xE0 then 0xA0 else 0x80,
      if a.toNat = 0xED then 0x9F else 0xBF, a.toNat - 0xE0) := by
  rw [lead?, if_neg (by omega)]
  by_cases hfirst : a.toNat = 0xE0
  · rw [if_pos hfirst, if_pos hfirst, if_neg (by omega), hfirst]
  · rw [if_neg hfirst, if_neg hfirst]
    by_cases hlast : a.toNat = 0xED
    · rw [if_pos hlast, if_pos hlast, hlast]
    · rw [if_neg hlast, if_neg hlast, if_pos ⟨by omega, h'⟩]

private theorem lead?_of_four (h : 0xF0 ≤ a.toNat) (h' : a.toNat ≤ 0xF4) :
    lead? a.toNat = some (3, if a.toNat = 0xF0 then 0x90 else 0x80,
      if a.toNat = 0xF4 then 0x8F else 0xBF, a.toNat - 0xF0) := by
  rw [lead?, if_neg (by omega), if_neg (by omega), if_neg (by omega), if_neg (by omega)]
  by_cases hfirst : a.toNat = 0xF0
  · rw [if_pos hfirst, if_pos hfirst, if_neg (by omega), hfirst]
  · rw [if_neg hfirst, if_neg hfirst]
    by_cases hlast : a.toNat = 0xF4
    · rw [if_neg (by omega), if_pos hlast, if_pos hlast, hlast]
    · rw [if_pos ⟨by omega, by omega⟩, if_neg hlast]

/-- The range of the second byte: that of any tail, but shorter at one end
behind two of the lead bytes. -/
theorem second_range_iff {lead first last low high n : Nat} (hlow : 0x80 ≤ low)
    (hhigh : high ≤ 0xBF) :
    ((if lead = first then low else 0x80) ≤ n ∧ n ≤ if lead = last then high else 0xBF) ↔
      (0x80 ≤ n ∧ n ≤ 0xBF) ∧ (lead = first → low ≤ n) ∧ (lead = last → n ≤ high) := by
  split <;> split <;> omega

/-- A lead byte announces one, two or three more. -/
theorem lead?_cases {x : Nat × Nat × Nat × Nat} (h : lead? a.toNat = some x) :
    (0xC2 ≤ a.toNat ∧ a.toNat ≤ 0xDF) ∨ (0xE0 ≤ a.toNat ∧ a.toNat ≤ 0xEF) ∨
      (0xF0 ≤ a.toNat ∧ a.toNat ≤ 0xF4) := by
  by_contra hnone
  rw [lead?, if_neg (by omega), if_neg (by omega), if_neg (by omega), if_neg (by omega),
    if_neg (by omega), if_neg (by omega), if_neg (by omega)] at h
  cases h

private theorem decodeFrom_single (h : a.toNat < 0x80) :
    decodeFrom pos none (a :: rest) =
      (decodeFrom (pos + 1) none rest).map (Char.ofNat a.toNat :: ·) := by
  rw [decodeFrom, if_pos h]

theorem decodeFrom_lead (h : ¬a.toNat < 0x80) {owed low high bits : Nat}
    (hlead : lead? a.toNat = some (owed, low, high, bits)) :
    decodeFrom pos none (a :: rest) =
      decodeFrom (pos + 1) (some ⟨pos, a, owed, low, high, bits⟩) rest := by
  rw [decodeFrom, if_neg h, hlead]

/-- The character begun, with one more byte of it read. -/
def Partial.next (p : Partial) (b : UInt8) : Partial :=
  ⟨p.start, p.first, p.owed - 1, 0x80, 0xBF, p.value * 64 + (b.toNat - 0x80)⟩

theorem decodeFrom_more (h : p.low ≤ b.toNat ∧ b.toNat ≤ p.high) (howed : 1 < p.owed) :
    decodeFrom pos (some p) (b :: rest) = decodeFrom (pos + 1) (some (p.next b)) rest := by
  rw [decodeFrom, if_pos h]
  dsimp only
  rw [if_neg (by omega)]
  rfl

private theorem decodeFrom_last (h : p.low ≤ b.toNat ∧ b.toNat ≤ p.high) (howed : p.owed ≤ 1) :
    decodeFrom pos (some p) (b :: rest) =
      (decodeFrom (pos + 1) none rest).map (Char.ofNat (p.next b).value :: ·) := by
  rw [decodeFrom, if_pos h]
  dsimp only
  rw [if_pos howed]
  rfl

/-- A character begun is gone on with by a byte of its range. -/
theorem exists_continuation (h : decodeFrom pos (some p) bytes = .ok cs) :
    ∃ b rest, bytes = b :: rest ∧ p.low ≤ b.toNat ∧ b.toNat ≤ p.high := by
  cases bytes with
  | nil => cases h
  | cons b rest =>
      by_cases hrange : p.low ≤ b.toNat ∧ b.toNat ≤ p.high
      · exact ⟨b, rest, rfl, hrange⟩
      · rw [decodeFrom, if_neg hrange] at h
        cases h

/-! ## Reading one character after the other -/

/-- A spelled character is read, and reading goes on behind it. -/
theorem decodeFrom_append {n : Nat} (h : Spells bytes n) (pos : Nat) (rest : List UInt8) :
    decodeFrom pos none (bytes ++ rest) =
      (decodeFrom (pos + bytes.length) none rest).map (Char.ofNat n :: ·) := by
  cases h with
  | one ha => exact decodeFrom_single ha
  | two ha ha' hb =>
      exact (decodeFrom_lead (by omega) (lead?_of_two ha ha')).trans
        (decodeFrom_last hb (Nat.le_refl 1))
  | three ha ha' hb hlow hhigh hc =>
      have hrange := (second_range_iff (by decide) (by decide)).2 ⟨hb, hlow, hhigh⟩
      refine (decodeFrom_lead (by omega) (lead?_of_three ha ha')).trans
        ((decodeFrom_more hrange ?_).trans (decodeFrom_last hc (Nat.le_refl 1)))
      exact Nat.lt_succ_self 1
  | four ha ha' hb hlow hhigh hc hd =>
      have hrange := (second_range_iff (by decide) (by decide)).2 ⟨hb, hlow, hhigh⟩
      refine (decodeFrom_lead (by omega) (lead?_of_four ha ha')).trans
        ((decodeFrom_more hrange ?_).trans ((decodeFrom_more ?_ ?_).trans (decodeFrom_last hd ?_)))
      · exact Nat.lt_add_of_pos_right (Nat.succ_pos 1)
      · exact hc
      · exact Nat.lt_succ_self 1
      · exact Nat.le_refl 1

/-- Bytes that can be read begin with a spelled character. -/
theorem exists_spells_of_decodeFrom (h : decodeFrom pos none (a :: rest) = .ok cs) :
    ∃ bytes n more, Spells bytes n ∧ a :: rest = bytes ++ more := by
  by_cases hsingle : a.toNat < 0x80
  · exact ⟨[a], a.toNat, rest, .one hsingle, rfl⟩
  cases hlead : lead? a.toNat with
  | none =>
      rw [decodeFrom, if_neg hsingle, hlead] at h
      cases h
  | some announced =>
      rcases lead?_cases hlead with ⟨ha, ha'⟩ | ⟨ha, ha'⟩ | ⟨ha, ha'⟩
      · rw [decodeFrom_lead hsingle (lead?_of_two ha ha')] at h
        obtain ⟨b, more, rfl, hb⟩ := exists_continuation h
        exact ⟨[a, b], _, more, .two ha ha' hb, rfl⟩
      · rw [decodeFrom_lead hsingle (lead?_of_three ha ha')] at h
        obtain ⟨b, more, rfl, hb⟩ := exists_continuation h
        rw [decodeFrom_more hb (show 1 < 2 by decide)] at h
        obtain ⟨c, more, rfl, hc⟩ := exists_continuation h
        obtain ⟨htail, hlow, hhigh⟩ := (second_range_iff (by decide) (by decide)).1 hb
        exact ⟨[a, b, c], _, more, .three ha ha' htail hlow hhigh hc, rfl⟩
      · rw [decodeFrom_lead hsingle (lead?_of_four ha ha')] at h
        obtain ⟨b, more, rfl, hb⟩ := exists_continuation h
        rw [decodeFrom_more hb (show 1 < 3 by decide)] at h
        obtain ⟨c, more, rfl, hc⟩ := exists_continuation h
        rw [decodeFrom_more hc (show 1 < 2 by decide)] at h
        obtain ⟨d, more, rfl, hd⟩ := exists_continuation h
        obtain ⟨htail, hlow, hhigh⟩ := (second_range_iff (by decide) (by decide)).1 hb
        exact ⟨[a, b, c, d], _, more, .four ha ha' htail hlow hhigh hc hd, rfl⟩

/-! ## Whole texts -/

theorem decodeFrom_encode (cs : List Char) :
    ∀ pos : Nat, decodeFrom pos none (cs.flatMap String.utf8EncodeChar) = .ok cs := by
  induction cs with
  | nil =>
      intro pos
      rfl
  | cons c cs ih =>
      intro pos
      rw [List.flatMap_cons, decodeFrom_append (spells_encode c), ih, Char.ofNat_toNat]
      rfl

/-- The induction is on the number of bytes: a spelled character takes at least
one of them away. -/
theorem eq_encode_of_decodeFrom (k : Nat) :
    ∀ (bytes : List UInt8) (pos : Nat) (cs : List Char), bytes.length ≤ k →
      decodeFrom pos none bytes = .ok cs → bytes = cs.flatMap String.utf8EncodeChar := by
  induction k with
  | zero =>
      intro bytes pos cs hk h
      rw [List.length_eq_zero_iff.1 (Nat.le_zero.1 hk)] at h ⊢
      cases h
      rfl
  | succ k ih =>
      intro bytes pos cs hk h
      cases bytes with
      | nil =>
          cases h
          rfl
      | cons a rest =>
          obtain ⟨first, n, more, hspells, hsplit⟩ := exists_spells_of_decodeFrom h
          have hfirst : first.length ≠ 0 := by cases hspells <;> simp
          have hcount : first.length + more.length ≤ k + 1 := by
            rw [← List.length_append, ← hsplit]
            exact hk
          rw [hsplit, decodeFrom_append hspells] at h
          obtain ⟨later, hlater, rfl⟩ := exists_of_map_eq_ok h
          rw [hsplit, List.flatMap_cons, ← hspells.eq_encode,
            ← ih more _ later (by omega) hlater]

private theorem toList_loop (bs : ByteArray) (i : Nat) (done : List UInt8) :
    ByteArray.toList.loop bs i done = done.reverse ++ bs.data.toList.drop i := by
  fun_induction ByteArray.toList.loop bs i done with
  | case1 i done h ih =>
      have hi : i < bs.data.toList.length := by simpa using h
      rw [ih, List.drop_eq_getElem_cons hi]
      simp [ByteArray.get!, h]
  | case2 i done h =>
      rw [List.drop_eq_nil_of_le (by simpa using Nat.le_of_not_lt h), List.append_nil]

private theorem toList_toUTF8 (s : String) :
    s.toUTF8.toList = s.toList.flatMap String.utf8EncodeChar := by
  have hbytes : s.toUTF8 = (s.toList.flatMap String.utf8EncodeChar).toByteArray := by
    conv => lhs; rw [← String.ofList_toList (s := s)]
    rfl
  rw [hbytes, ByteArray.toList, toList_loop, List.toList_data_toByteArray]
  rfl

/-- Bytes are read as a text exactly if they are the encoding of that text. -/
theorem decode_eq_ok_iff {bytes : List UInt8} {s : String} :
    decode bytes = .ok s ↔ bytes = s.toUTF8.toList := by
  rw [toList_toUTF8]
  constructor
  · intro h
    obtain ⟨cs, hcs, rfl⟩ := exists_of_map_eq_ok h
    rw [String.toList_ofList]
    exact eq_encode_of_decodeFrom bytes.length bytes 0 cs (Nat.le_refl _) hcs
  · intro h
    rw [h, decode, decodeFrom_encode]
    exact congrArg Except.ok String.ofList_toList

end Text.Utf8

end Storyboard
