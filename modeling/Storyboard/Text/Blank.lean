import Storyboard.Sequence

/-!
# Blank characters and line breaks

Two classes of characters shape every text this library reads: the *blank*
characters, which are trimmed from the ends of a line and separate its words,
and the *line breaks*, which end a line. Every line break is blank, and the
unit separator `U+001F` is blank without being a line break.

Texts are taken apart as lists of characters, one structural recursion each.

## Main definitions

* `isBlank`, `isBreak` — the two classes.
* `trim`, `trimEnd` — a text without blanks at both ends, or at its end.
* `words` — the maximal runs of characters that are not blank.
* `lines` — the lines of a text; a carriage return and the line feed after it
  are one break.
-/

namespace Storyboard.Text

/-! ## Character classes -/

/-- Blank characters: the controls from tab to carriage return, the four
separators `U+001C` to `U+001F`, the next-line control, and every space. -/
def isBlank (c : Char) : Bool :=
  let n := c.toNat
  (9 ≤ n && n ≤ 13) || (28 ≤ n && n ≤ 32) || n == 0x85 || n == 0xA0 || n == 0x1680 ||
    (0x2000 ≤ n && n ≤ 0x200A) || n == 0x2028 || n == 0x2029 || n == 0x202F ||
    n == 0x205F || n == 0x3000

/-- Line breaks: line feed, vertical tab, form feed, carriage return, the
file, group and record separators, next line, and the line and paragraph
separators. -/
def isBreak (c : Char) : Bool :=
  let n := c.toNat
  (10 ≤ n && n ≤ 13) || (28 ≤ n && n ≤ 30) || n == 0x85 || n == 0x2028 || n == 0x2029

/-- The text without the blanks at its start. -/
def trimStart (cs : List Char) : List Char :=
  cs.dropWhile isBlank

/-- The text without the blanks at its end. -/
def trimEnd (cs : List Char) : List Char :=
  Sequence.dropEndWhile isBlank cs

/-- The text without the blanks at either end. -/
def trim (cs : List Char) : List Char :=
  trimEnd (trimStart cs)

/-- A string without the blanks at either end. -/
def strip (s : String) : String :=
  String.ofList (trim s.toList)

/-- A string without the blanks at its end. -/
def stripEnd (s : String) : String :=
  String.ofList (trimEnd s.toList)

@[simp] theorem trim_nil : trim [] = [] := rfl

@[simp] theorem toList_strip (s : String) : (strip s).toList = trim s.toList :=
  String.toList_ofList

@[simp] theorem toList_stripEnd (s : String) : (stripEnd s).toList = trimEnd s.toList :=
  String.toList_ofList

/-! ## Words -/

/-- Whether a word that ends just before `cs` ends there: nothing follows, or
a blank does. -/
def atWordEnd : List Char → Bool
  | [] => true
  | c :: _ => isBlank c

/-- The words of a text, in order: its maximal runs of characters that are
not blank. -/
def words : List Char → List (List Char)
  | [] => []
  | c :: rest =>
    if isBlank c then words rest
    else if atWordEnd rest then [c] :: words rest
    else
      match words rest with
      | [] => [[c]]
      | w :: ws => (c :: w) :: ws

/-! ## Lines -/

/-- The lines of a text, without their breaks. A final break opens no further
line, so a text and the same text with a break at its end have the same
lines. -/
def lines : List Char → List (List Char)
  | [] => []
  | '\r' :: '\n' :: rest => [] :: lines rest
  | c :: rest =>
    if isBreak c then [] :: lines rest
    else
      match lines rest with
      | [] => [[c]]
      | l :: ls => (c :: l) :: ls

/-- Turns every carriage return, and every carriage return with the line feed
after it, into one line feed. -/
def unifyBreaks : List Char → List Char
  | [] => []
  | '\r' :: '\n' :: rest => '\n' :: unifyBreaks rest
  | c :: rest => (if c = '\r' then '\n' else c) :: unifyBreaks rest

/-! ## Searching -/

/-- Cuts a text at the first occurrence of `mark`: what stands before it and
what stands after it. -/
def cutFirst? (mark : List Char) : List Char → Option (List Char × List Char)
  | [] => none
  | c :: rest =>
    match mark.isPrefixOf? (c :: rest) with
    | some after => some ([], after)
    | none => (cutFirst? mark rest).map fun p => (c :: p.1, p.2)

/-- Cuts a text at the last occurrence of `mark`. -/
def cutLast? (mark : List Char) : List Char → Option (List Char × List Char)
  | [] => none
  | c :: rest =>
    match cutLast? mark rest with
    | some p => some (c :: p.1, p.2)
    | none => (mark.isPrefixOf? (c :: rest)).map fun after => ([], after)

end Storyboard.Text
