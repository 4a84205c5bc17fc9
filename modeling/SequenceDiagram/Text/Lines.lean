/-!
# Lines and labels

A text is a list of lines ended by line feeds; a carriage return before the line feed is not
part of the line. A label is written on one line and holds its own line breaks as a backslash
followed by `n`.

## Main definitions

* `Text.lines`: the lines of a text
* `Text.labelLines`: the lines of a label

## Main results

* `Text.splitEscapes_of_plain`: a label without a written break is one line
-/

namespace SequenceDiagram.Text

/-- A line without the carriage return that ends it, if one does. -/
def dropReturn : List Char → List Char
  | [] => []
  | ['\r'] => []
  | c :: cs => c :: dropReturn cs

/-- The lines of a text. -/
def lines (text : String) : List String :=
  (text.toList.splitOn '\n').map fun l => String.ofList (dropReturn l)

/-- The pieces between the written line breaks, each a backslash followed by `n`. -/
def splitEscapes : List Char → List (List Char)
  | '\\' :: 'n' :: cs => [] :: splitEscapes cs
  | c :: cs => (splitEscapes cs).modifyHead (c :: ·)
  | [] => [[]]

/-- The lines of a label. -/
def labelLines (label : String) : List String :=
  (splitEscapes label.toList).map String.ofList

theorem splitEscapes_ne_nil (cs : List Char) : splitEscapes cs ≠ [] := by
  fun_induction splitEscapes cs with
  | case1 cs ih => simp
  | case2 c cs h ih => simpa using ih
  | case3 => simp

theorem labelLines_ne_nil (label : String) : labelLines label ≠ [] := by
  simp [labelLines, splitEscapes_ne_nil]

theorem splitEscapes_of_plain (cs : List Char) (h : '\\' ∉ cs) : splitEscapes cs = [cs] := by
  fun_induction splitEscapes cs with
  | case1 cs ih => simp at h
  | case2 c cs _ ih => simp [ih (fun hc => h (List.mem_cons_of_mem _ hc))]
  | case3 => rfl

example : labelLines "one\\ntwo\\\\n" = ["one", "two\\", ""] := by decide +kernel

example : lines "a\r\n\nb\r\r" = ["a", "", "b\r"] := by decide +kernel

end SequenceDiagram.Text
