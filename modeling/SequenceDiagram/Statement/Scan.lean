/-!
# Scanning a line

Statements are read from the left, one piece at a time. A line may itself hold line feeds: a
field in quotes or a name runs over them, free text does not, and one line feed at the very end
counts as the end of the line.

## Main definitions

* `Scan.word? w`: what follows the word `w`
* `Scan.spaces`, `Scan.blanks`: what follows a run of spaces, of spaces and tabs
* `Scan.past c`: what follows one `c` that may be missing
* `Scan.atEnd`: nothing is left but one line feed
* `Scan.text?`: free text up to the end
* `Scan.label?`: the label that follows a keyword
* `Scan.quotable?`: a name up to the end, in quotes or not

## Main results

* `Scan.word?_append`, `Scan.eq_append_of_word?`: a word is read exactly where it is written
-/

namespace SequenceDiagram.Scan

/-- What follows a word. -/
def word? : List Char → List Char → Option (List Char)
  | [], cs => some cs
  | _ :: _, [] => none
  | w :: ws, c :: cs => if c = w then word? ws cs else none

@[simp] theorem word?_append (w cs : List Char) : word? w (w ++ cs) = some cs := by
  induction w with
  | nil => rfl
  | cons a w ih => simp [word?, ih]

theorem eq_append_of_word? {w cs rest : List Char} (h : word? w cs = some rest) :
    cs = w ++ rest := by
  fun_induction word? w cs with
  | case1 cs => simp_all
  | case2 => simp at h
  | case3 a ws cs ih => simp [ih h]
  | case4 => simp at h

/-- What follows a run of spaces. -/
def spaces (cs : List Char) : List Char := cs.dropWhile (· = ' ')

/-- What follows a run of spaces and tabs. -/
def blanks (cs : List Char) : List Char := cs.dropWhile fun c => c = ' ' || c = '\t'

/-- Nothing is left but at most one line feed. -/
def atEnd (cs : List Char) : Bool := cs = [] || cs = ['\n']

/-- What follows one character that may be missing. -/
def past (c : Char) : List Char → List Char
  | [] => []
  | d :: cs => if d = c then cs else d :: cs

/-- Free text up to the end of the line. -/
def text? (cs : List Char) : Option (List Char) :=
  if atEnd (cs.dropWhile (· ≠ '\n')) then some (cs.takeWhile (· ≠ '\n')) else none

/-- Characters without the spaces at their end. -/
def dropFinalSpaces (cs : List Char) : List Char := (cs.reverse.dropWhile (· = ' ')).reverse

/-- The label that follows a keyword: at least one space, then text that is not empty, then
spaces. Of a keyword followed by two spaces or more and nothing else, the last space is the
label. -/
def label? (cs : List Char) : Option (List Char) :=
  let rest := spaces cs
  let indent := cs.length - rest.length
  if indent = 0 then none
  else if atEnd rest then if indent = 1 then none else some [' ']
  else
    match text? rest with
    | some [] => none
    | some label => some (dropFinalSpaces label)
    | none => none

/-- A name that may be in quotes, up to the end of the line; neither quote needs the other. -/
def quotable? (cs : List Char) : Option (List Char) :=
  let body := past '"' cs
  if atEnd (past '"' (body.dropWhile (· ≠ '"'))) then some (body.takeWhile (· ≠ '"')) else none

example : label? " a b  \n".toList = some "a b".toList ∧ label? "  ".toList = some [' '] ∧
    label? " ".toList = none ∧ label? "a".toList = none ∧ label? " a\nb".toList = none := by
  decide +kernel

example : quotable? "\"A\"".toList = some ['A'] ∧ quotable? "A b\n".toList = some "A b\n".toList ∧
    quotable? "A\"\n".toList = some ['A'] ∧ quotable? "\"A\"b".toList = none := by
  decide +kernel

end SequenceDiagram.Scan
