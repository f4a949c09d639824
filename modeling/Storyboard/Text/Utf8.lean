import Storyboard.Text.Quoted

/-!
# Reading UTF-8

Bytes become characters one lead byte and its continuation bytes at a time.
A lead byte fixes how many continuation bytes follow and the range of the
first of them; the ranges shut out overlong forms, surrogates and everything
past `U+10FFFF`.

Reading stops at the first fault. A fault covers the bytes of the character
that had been accepted so far: a byte that starts no character, a character
interrupted by a byte that does not continue it, or one cut off by the end of
the data.

## Main definitions

* `Utf8.Fault` — where reading stopped, and why.
* `Utf8.decode` — the characters of a byte sequence.
-/

namespace Storyboard.Text.Utf8

/-- Why a byte sequence is not UTF-8. -/
inductive Cause where
  | badStart
  | badContinuation
  | cutOff
deriving DecidableEq, Repr

/-- The place where reading stopped: `first` is the byte at position `start`,
and the fault covers the positions from `start` up to `stop`, which it does
not include. -/
structure Fault where
  start : Nat
  stop : Nat
  first : UInt8
  cause : Cause
deriving DecidableEq, Repr

/-- The wording of a cause. -/
def Cause.text : Cause → String
  | .badStart => "invalid start byte"
  | .badContinuation => "invalid continuation byte"
  | .cutOff => "unexpected end of data"

/-- The wording of a fault: one byte is shown by its value, several by their
positions. -/
def Fault.text (f : Fault) : String :=
  let place :=
    if f.stop = f.start + 1 then
      "byte 0x" ++ String.ofList (hexDigits 2 f.first.toNat) ++ " in position " ++
        toString f.start
    else "bytes in position " ++ toString f.start ++ "-" ++ toString (f.stop - 1)
  "'utf-8' codec can't decode " ++ place ++ ": " ++ f.cause.text

/-- A character of which some bytes have been read: `owed` more must follow,
the next one between `low` and `high`, and `value` holds the bits read. -/
structure Partial where
  start : Nat
  first : UInt8
  owed : Nat
  low : Nat
  high : Nat
  value : Nat

/-- What a lead byte announces: the number of continuation bytes, the range
of the first of them, and its own bits of the code point. -/
def lead? (b : Nat) : Option (Nat × Nat × Nat × Nat) :=
  if 0xC2 ≤ b ∧ b ≤ 0xDF then some (1, 0x80, 0xBF, b - 0xC0)
  else if b = 0xE0 then some (2, 0xA0, 0xBF, 0)
  else if b = 0xED then some (2, 0x80, 0x9F, 0xD)
  else if 0xE1 ≤ b ∧ b ≤ 0xEF then some (2, 0x80, 0xBF, b - 0xE0)
  else if b = 0xF0 then some (3, 0x90, 0xBF, 0)
  else if 0xF1 ≤ b ∧ b ≤ 0xF3 then some (3, 0x80, 0xBF, b - 0xF0)
  else if b = 0xF4 then some (3, 0x80, 0x8F, 4)
  else none

/-- Reads the bytes from position `pos` on, with `unfinished` the character
begun before it. -/
def decodeFrom : Nat → Option Partial → List UInt8 → Except Fault (List Char)
  | _, none, [] => .ok []
  | pos, some p, [] => .error ⟨p.start, pos, p.first, .cutOff⟩
  | pos, none, b :: rest =>
    if b.toNat < 0x80 then
      (decodeFrom (pos + 1) none rest).map (Char.ofNat b.toNat :: ·)
    else
      match lead? b.toNat with
      | none => .error ⟨pos, pos + 1, b, .badStart⟩
      | some (owed, low, high, bits) =>
        decodeFrom (pos + 1) (some ⟨pos, b, owed, low, high, bits⟩) rest
  | pos, some p, b :: rest =>
    if p.low ≤ b.toNat ∧ b.toNat ≤ p.high then
      let value := p.value * 64 + (b.toNat - 0x80)
      if p.owed ≤ 1 then
        (decodeFrom (pos + 1) none rest).map (Char.ofNat value :: ·)
      else
        decodeFrom (pos + 1) (some ⟨p.start, p.first, p.owed - 1, 0x80, 0xBF, value⟩) rest
    else .error ⟨p.start, pos, p.first, .badContinuation⟩

/-- The text that a byte sequence encodes. -/
def decode (bytes : List UInt8) : Except Fault String :=
  (decodeFrom 0 none bytes).map String.ofList

end Storyboard.Text.Utf8
