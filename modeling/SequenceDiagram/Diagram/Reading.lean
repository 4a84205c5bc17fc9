import SequenceDiagram.Diagnostic
import SequenceDiagram.Diagram.Reaction

/-!
# Reading texts

A text is read line by line. A line that is not taken is reported and has no effect; only a
fault ends the reading early.

## Main definitions

* `Reading`: the diagram and the report after some lines
* `Reaction.after`, `Reaction.complaint`: the diagram after a line, and what is reported about it
* `Diagram.readLines`: several lines, numbered on from a number
* `Diagram.readText`: a text, with its lines numbered from one

## Main results

* `Diagram.readLines_append`: lines are read one after another
-/

namespace SequenceDiagram

/-- The diagram after some lines, and what is reported about them. -/
structure Reading where
  diagram : Diagram
  report : List Diagnostic := []
  /-- The fault that ended the reading, if one did. -/
  fault : Option Fault := none

namespace Reading

/-- A reading with entries before its report. -/
def prepend (entries : List Diagnostic) (r : Reading) : Reading :=
  { r with report := entries ++ r.report }

@[simp] theorem prepend_nil (r : Reading) : r.prepend [] = r := rfl

@[simp] theorem diagram_prepend (es : List Diagnostic) (r : Reading) :
    (r.prepend es).diagram = r.diagram := rfl

@[simp] theorem report_prepend (es : List Diagnostic) (r : Reading) :
    (r.prepend es).report = es ++ r.report := rfl

@[simp] theorem fault_prepend (es : List Diagnostic) (r : Reading) :
    (r.prepend es).fault = r.fault := rfl

@[simp] theorem prepend_append (es fs : List Diagnostic) (r : Reading) :
    r.prepend (es ++ fs) = (r.prepend fs).prepend es := by
  simp [prepend]

end Reading

namespace Reaction

/-- The diagram after a reaction of `d`. -/
def after (d : Diagram) : Reaction → Diagram
  | applied d' | failed _ d' => d'
  | mismatch | skipped => d

/-- The fault of a reaction that failed. -/
def fault? : Reaction → Option Fault
  | failed f _ => some f
  | _ => none

/-- What is reported about the line of a number, by the reaction to it. -/
def complaint (number : Int) : Reaction → Option Diagnostic
  | mismatch => some (.atLine number .scope)
  | skipped => some (.atLine number .unrecognized)
  | applied _ | failed .. => none

end Reaction

namespace Diagram

/-- The reading of several lines, the first of which has the given number. -/
def readLines (forms : List Form) (d : Diagram) (number : Int) : List String → Reading
  | [] => { diagram := d }
  | line :: rest =>
    let r := d.readLine forms line
    match r.fault? with
    | some f => { diagram := r.after d, fault := some f }
    | none =>
      (readLines forms (r.after d) (number + 1) rest).prepend (r.complaint number).toList

/-- The reading of a text. A block that is open at its end is reported last. -/
def readText (forms : List Form) (d : Diagram) (text : String) : Reading :=
  let r := readLines forms d 1 (Text.lines text)
  if r.fault = none ∧ r.diagram.active ≠ [] then
    { r with report := r.report ++ [Diagnostic.unterminated] }
  else r

@[simp] theorem readLines_nil (forms : List Form) (d : Diagram) (number : Int) :
    readLines forms d number [] = { diagram := d } := rfl

/-- Lines are read one after another. -/
theorem readLines_append (forms : List Form) (d : Diagram) (number : Int) (ls ms : List String) :
    readLines forms d number (ls ++ ms) =
      let r := readLines forms d number ls
      if r.fault = none then (readLines forms r.diagram (number + ls.length) ms).prepend r.report
      else r := by
  induction ls generalizing d number with
  | nil => simp
  | cons l ls ih =>
    have hn : number + ((ls.length + 1 : Nat) : Int) = number + 1 + ls.length := by omega
    simp only [List.cons_append, readLines, List.length_cons, hn]
    cases h : (d.readLine forms l).fault? with
    | some f => simp
    | none =>
      simp only [ih, Reading.fault_prepend, Reading.diagram_prepend, Reading.report_prepend]
      split <;> rename_i hf <;> simp [hf]

end Diagram

end SequenceDiagram
