import SequenceDiagram.Statement.Reader

/-!
# Forms of statement

Each form of statement reads a line on its own; a line may fit several. The forms stand in a
table, and a line is taken as the first form of the table that fits it and that the diagram
accepts at that point.

## Main definitions

* `Form`: the forms
* `Form.table`: all forms, in the order in which they are tried
* `Form.read?`: the statement that a line makes in a form
* `Form.ofStatement`: the form that a statement is written in
* `Form.captures?`: what a line captures in a form, if as many fields as expected
* `readings`: the statements that a line makes in several forms

## Main results

* `Form.ofStatement_of_read?`: a form reads statements of that form only
* `Form.length_fields_of_read?`: a form always captures as many fields as its arity says
-/

namespace SequenceDiagram

/-- The forms of statement. -/
inductive Form where
  | aliased
  | participant
  | openParallel
  | closeParallel
  | openOption
  | openLoop
  | openAlternative
  | separator
  | closeFrame
  | numberFrom
  | numberOff
  | state
  | signal
  | comment
  | blank
deriving DecidableEq

namespace Form

open Statement

/-- All forms, in the order in which they are tried. -/
def table : List Form :=
  [aliased, participant, openParallel, closeParallel, openOption, openLoop, openAlternative,
    separator, closeFrame, numberFrom, numberOff, state, signal, comment, blank]

/-- The name of a form. -/
def name : Form → String
  | aliased => "participant_alias"
  | participant => "participant"
  | openParallel => "parallel_open"
  | closeParallel => "parallel_close"
  | openOption => "opt"
  | openLoop => "loop"
  | openAlternative => "alt"
  | separator => "else"
  | closeFrame => "end"
  | numberFrom => "autonumber"
  | numberOff => "autonumber_off"
  | state => "state"
  | signal => "signal"
  | comment => "comment"
  | blank => "blank"

/-- The form of a name. -/
def ofName? (s : String) : Option Form := table.find? fun f => f.name = s

/-- How many fields a form captures. -/
def arity : Form → Nat
  | aliased => 2
  | participant => 1
  | openLoop => 1
  | openAlternative => 1
  | separator => 1
  | numberFrom => 1
  | state => 2
  | signal => 6
  | openParallel | closeParallel | openOption | closeFrame | numberOff | comment | blank => 0

/-- The statement that a line makes in a form. -/
def read? : Form → List Char → Option Statement
  | aliased => readAliased?
  | participant => readParticipant?
  | openParallel => readOpenParallel?
  | closeParallel => readWord? ['\x7d'] .closeParallel
  | openOption => readWord? "opt".toList .openOption
  | openLoop => readLabelled? "loop".toList .openLoop
  | openAlternative => readLabelled? "alt".toList .openAlternative
  | separator => readLabelled? "else".toList .separator
  | closeFrame => readWord? "end".toList .closeFrame
  | numberFrom => readNumberFrom?
  | numberOff => readNumberOff?
  | state => readState?
  | signal => readSignal?
  | comment => readComment?
  | blank => readBlank?

/-- The form that a statement is written in. -/
def ofStatement : Statement → Form
  | .aliased .. => aliased
  | .participant .. => participant
  | .openParallel => openParallel
  | .closeParallel => closeParallel
  | .openOption => openOption
  | .openLoop .. => openLoop
  | .openAlternative .. => openAlternative
  | .separator .. => separator
  | .closeFrame => closeFrame
  | .numberFrom .. => numberFrom
  | .numberOff => numberOff
  | .state .. => state
  | .signal .. => signal
  | .comment => comment
  | .blank => blank

@[simp] theorem length_fields (s : Statement) : s.fields.length = (ofStatement s).arity := by
  cases s <;> rfl

/-- A form reads statements of that form only. -/
theorem ofStatement_of_read? {f : Form} {line : List Char} {s : Statement}
    (h : f.read? line = some s) : ofStatement s = f := by
  cases f <;>
    simp [read?, readAliased?, readParticipant?, readOpenParallel?, readWord?, readLabelled?,
      readNumberFrom?, readNumberOff?, readState?, readSignal?, readComment?, readBlank?,
      Option.bind_eq_some_iff] at h <;>
    grind [ofStatement]

/-- A form always captures as many fields as its arity says. -/
theorem length_fields_of_read? {f : Form} {line : List Char} {s : Statement}
    (h : f.read? line = some s) : s.fields.length = f.arity := by
  rw [length_fields, ofStatement_of_read? h]

/-- What a line captures in a form of which `expected` fields are expected. -/
def captures? (f : Form) (expected : Int) (line : List Char) : Option (List (Option String)) :=
  if expected = f.arity then (f.read? line).map Statement.fields else none

end Form

/-- The statements that a line makes in several forms, in their order. -/
def readings (forms : List Form) (line : String) : List Statement :=
  forms.filterMap fun f => f.read? line.toList

end SequenceDiagram
