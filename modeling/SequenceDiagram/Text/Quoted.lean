import SequenceDiagram.Text.Printable

/-!
# Quoted text

Text as it is quoted in a message. Apostrophes surround it, or quotation marks if it holds an
apostrophe and no quotation mark; a surrounding mark inside it, a backslash and an unprintable
character are written as escapes.

## Main definitions

* `Text.quoteMark`: the mark that surrounds a text
* `Text.escapeQuoted`: a character of a quoted text
* `Text.quoted`: text in quoted form
-/

namespace SequenceDiagram.Text

/-- The hexadecimal digits of a number, at least `width` of them, in lower case. -/
def hexDigits (width n : Nat) : List Char :=
  let digits := Nat.toDigits 16 n
  List.replicate (width - digits.length) '0' ++ digits

/-- The mark that surrounds a text. -/
def quoteMark (cs : List Char) : Char :=
  if cs.contains '\'' && !cs.contains '"' then '"' else '\''

/-- The escape of an unprintable character, the shortest of three widths that holds it. -/
def codeEscape (n : Nat) : List Char :=
  if n ≤ 0xff then '\\' :: 'x' :: hexDigits 2 n
  else if n ≤ 0xffff then '\\' :: 'u' :: hexDigits 4 n
  else '\\' :: 'U' :: hexDigits 8 n

/-- A character of a text that `mark` surrounds. -/
def escapeQuoted (mark c : Char) : List Char :=
  if c = mark ∨ c = '\\' then ['\\', c]
  else if c = '\n' then ['\\', 'n']
  else if c = '\r' then ['\\', 'r']
  else if c = '\t' then ['\\', 't']
  else if isPrintable c then [c]
  else codeEscape c.toNat

/-- Text in quoted form. -/
def quoted (s : String) : String :=
  let mark := quoteMark s.toList
  String.ofList (mark :: s.toList.flatMap (escapeQuoted mark) ++ [mark])

example : quoted "it's" = "\"it's\"" ∧ quoted "'\"" = "'\\'\"'" ∧ quoted "\\\x07" = "'\\\\\\x07'" := by
  decide +kernel

end SequenceDiagram.Text
