import Storyboard.Text.Printable

/-!
# Quoted text

The literal form in which a message shows a piece of text. The text stands
between single quotes, or between double quotes when it holds a single quote
and no double quote. The backslash and the quote in use are escaped, tab, line
feed and carriage return have a letter each, and any other character that is
not printable is written by its code point in lower-case hexadecimal digits.

## Main definitions

* `quoteMark` — the quote a text is written between.
* `escape` — how one character is written.
* `quoted` — the literal form of a text.
* `quotedTexts` — the literal form of several texts.
-/

namespace Storyboard.Text

/-- The `width` low hexadecimal digits of `n`, most significant first. -/
def hexDigits (width n : Nat) : List Char :=
  (List.range width).reverse.map fun k => Nat.digitChar ((n >>> (4 * k)) % 16)

/-- A double quote if the text holds a single quote and no double quote, else
a single quote. -/
def quoteMark (cs : List Char) : Char :=
  if '\'' ∈ cs ∧ '"' ∉ cs then '"' else '\''

/-- One character inside quotes `mark`. Code points take two, four or eight
digits, whichever is the first to hold them. -/
def escape (mark c : Char) : List Char :=
  if c = mark ∨ c = '\\' then ['\\', c]
  else if c = '\t' then ['\\', 't']
  else if c = '\n' then ['\\', 'n']
  else if c = '\r' then ['\\', 'r']
  else if isPrintable c then [c]
  else if c.toNat < 0x100 then '\\' :: 'x' :: hexDigits 2 c.toNat
  else if c.toNat < 0x10000 then '\\' :: 'u' :: hexDigits 4 c.toNat
  else '\\' :: 'U' :: hexDigits 8 c.toNat

/-- The literal form of a text. -/
def quoted (s : String) : String :=
  let mark := quoteMark s.toList
  String.ofList (mark :: s.toList.flatMap (escape mark) ++ [mark])

/-- The literal form of several texts, side by side in round brackets. -/
def quotedTexts (ss : List String) : String :=
  "(" ++ String.intercalate ", " (ss.map quoted) ++ ")"

end Storyboard.Text
