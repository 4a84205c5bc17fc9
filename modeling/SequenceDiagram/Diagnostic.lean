/-!
# Diagnostics

What is reported about a text: lines that were not understood, and blocks left open at its end.

## Main definitions

* `Diagnostic`: one entry of a report
* `Diagnostic.atLine`, `Diagnostic.unterminated`: the two ways in which entries arise
* `Diagnostic.report`: the messages of several entries as one text
-/

namespace SequenceDiagram

/-- What a report says is wrong. -/
inductive Diagnostic.Kind where
  /-- No form of statement fits the line. -/
  | unrecognized
  /-- The line ends a block other than the open one. -/
  | scope
  /-- A block is open at the end of the text. -/
  | unterminated
deriving DecidableEq

/-- The name of a kind of error. -/
def Diagnostic.Kind.name : Diagnostic.Kind → String
  | unrecognized => "syntax"
  | scope => "scope"
  | unterminated => "unterminated"

/-- One entry of a report. -/
structure Diagnostic where
  /-- The line it is about, or none if it is about the text as a whole. -/
  line : Option Int
  kind : Diagnostic.Kind
  message : String
deriving DecidableEq

namespace Diagnostic

/-- An entry about a line, which its message names. -/
def atLine (line : Int) (kind : Kind) : Diagnostic :=
  ⟨some line, kind, "E: line " ++ toString line⟩

/-- The entry for a text that ends inside a block. -/
def unterminated : Diagnostic :=
  ⟨none, .unterminated, "E: missing closing 'end' tag before the end of the code"⟩

/-- The messages of several entries as one text. -/
def report (separator : String) (entries : List Diagnostic) : String :=
  separator.intercalate (entries.map message)

@[simp] theorem report_nil (separator : String) : report separator [] = "" := rfl

end Diagnostic

end SequenceDiagram
