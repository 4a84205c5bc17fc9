/-!
# Statements

What one line of a description says. Every line holds at most one statement.

## Main definitions

* `Statement`: the statements
* `Statement.fields`: what a statement captures from its line
-/

namespace SequenceDiagram

/-- What one line of a description says. -/
inductive Statement where
  /-- `participant "label" as name` -/
  | aliased (label name : String)
  /-- `participant name` -/
  | participant (name : String)
  /-- The word `parallel` and an opening brace. -/
  | openParallel
  /-- A closing brace. -/
  | closeParallel
  /-- `opt` -/
  | openOption
  /-- `loop label` -/
  | openLoop (label : String)
  /-- `alt condition` -/
  | openAlternative (condition : String)
  /-- `else condition` -/
  | separator (condition : String)
  /-- `end` -/
  | closeFrame
  /-- `autonumber numeral` -/
  | numberFrom (numeral : String)
  /-- `autonumber off` -/
  | numberOff
  /-- `state over name: text` -/
  | state (name text : String)
  /-- `source->target: text`, with `<` before the arrow, a second dash in it or a second `>`
  after it. -/
  | signal (source : String) (double dotted openHead : Bool) (target text : String)
  /-- `# text` -/
  | comment
  /-- A line of spaces and tabs. -/
  | blank
deriving DecidableEq

namespace Statement

/-- A sign that may be missing, as a field. -/
def sign (present : Bool) (s : String) : Option String := if present then some s else none

/-- What a statement captures from its line, from left to right. -/
def fields : Statement → List (Option String)
  | aliased label name => [some label, some name]
  | participant name => [some name]
  | openLoop label => [some label]
  | openAlternative condition => [some condition]
  | separator condition => [some condition]
  | numberFrom numeral => [some numeral]
  | state name text => [some name, some text]
  | signal source double dotted openHead target text =>
    [some source, sign double "<", sign dotted "-", sign openHead ">", some target, some text]
  | openParallel | closeParallel | openOption | closeFrame | numberOff | comment | blank => []

end Statement

end SequenceDiagram
