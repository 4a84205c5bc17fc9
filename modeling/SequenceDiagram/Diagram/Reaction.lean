import SequenceDiagram.Diagram.Basic
import SequenceDiagram.Statement.Form

/-!
# Reactions to statements

How a diagram takes one statement, and one line. A line is taken as the first of its readings that
the diagram accepts; a reading that closes a block of another kind, or that makes no sense where
it stands, leaves the diagram as it is and the next one is tried.

## Main definitions

* `Reaction`: what becomes of a statement or a line
* `Reaction.orElse`: the reaction to a reading, or else to the readings after it
* `Diagram.react`: the reaction to a statement
* `Diagram.readLine`: the reaction to a line

## Main results

* `Reaction.orElse_assoc`: readings are tried from the first to the last, however grouped
* `Diagram.readLine_cons`: the first form of a table is tried before the others
-/

namespace SequenceDiagram

/-- What becomes of a statement or a line. -/
inductive Reaction where
  /-- It is taken, and the diagram changes. -/
  | applied (d : Diagram)
  /-- It closes a block of a kind other than the open one. -/
  | mismatch
  /-- It says nothing here. -/
  | skipped
  /-- Taking it fails, possibly after some change. -/
  | failed (fault : Fault) (d : Diagram)

namespace Reaction

/-- The reaction to a reading, or else to the readings after it. -/
def orElse : Reaction → Reaction → Reaction
  | skipped, r => r
  | mismatch, skipped => mismatch
  | mismatch, r => r
  | r, _ => r

@[simp] theorem skipped_orElse (r : Reaction) : skipped.orElse r = r := rfl

@[simp] theorem orElse_skipped (r : Reaction) : r.orElse skipped = r := by
  cases r <;> rfl

@[simp] theorem applied_orElse (d : Diagram) (r : Reaction) : (applied d).orElse r = applied d :=
  rfl

@[simp] theorem failed_orElse (f : Fault) (d : Diagram) (r : Reaction) :
    (failed f d).orElse r = failed f d := rfl

theorem orElse_assoc (r s t : Reaction) : (r.orElse s).orElse t = r.orElse (s.orElse t) := by
  cases r <;> cases s <;> cases t <;> rfl

/-- The reaction of an operation that gives nothing but a diagram or a fault. -/
def ofExcept (d : Diagram) : Except Fault Diagram → Reaction
  | .ok d => applied d
  | .error f => failed f d

end Reaction

namespace Diagram

/-- The value of a numeral. -/
def numeralValue (numeral : String) : Nat :=
  numeral.toList.foldl (fun n c => 10 * n + (c.toNat - '0'.toNat)) 0

/-- The reaction to a statement. -/
def react (d : Diagram) : Statement → Reaction
  | .aliased label name => .applied (d.register name (some label))
  | .participant name => .applied (d.register name none)
  | .openParallel => .applied (d.openBlock .parallel)
  | .closeParallel => if d.activeKind = .parallel then .ofExcept d d.closeBlock else .mismatch
  | .openOption => .applied (d.openBlock (.framed "opt" ""))
  | .openLoop label => .applied (d.openBlock (.framed "loop" label))
  | .openAlternative condition => .applied (d.openBlock (.alternative condition))
  | .separator condition =>
    if d.activeKind.isAlternative then .ofExcept d (d.addSeparator condition) else .skipped
  | .closeFrame => if d.activeKind.isFramed then .ofExcept d d.closeBlock else .mismatch
  | .numberFrom numeral =>
    if digitLimit < numeral.length then .failed (.longNumeral numeral.length) d
    else .applied { d with counter := some (numeralValue numeral) }
  | .numberOff => .applied { d with counter := none }
  | .state name text => .applied (d.addNote ⟨name, Text.labelLines text⟩)
  | .signal source double dotted openHead target text =>
    match d.addSignal ⟨source, target, Text.labelLines text, dotted, double, openHead⟩ with
    | (none, d) => .applied d
    | (some f, d) => .failed f d
  | .comment => .applied d
  | .blank => .applied d

/-- The reaction to several readings of a line. -/
def reactFirst (d : Diagram) (readings : List Statement) : Reaction :=
  readings.foldr (fun s r => (d.react s).orElse r) .skipped

/-- The reaction to a line, read in the forms of a table. -/
def readLine (d : Diagram) (forms : List Form) (line : String) : Reaction :=
  d.reactFirst (readings forms line)

@[simp] theorem reactFirst_nil (d : Diagram) : d.reactFirst [] = .skipped := rfl

@[simp] theorem reactFirst_cons (d : Diagram) (s : Statement) (ss : List Statement) :
    d.reactFirst (s :: ss) = (d.react s).orElse (d.reactFirst ss) := rfl

theorem reactFirst_append (d : Diagram) (ss ts : List Statement) :
    d.reactFirst (ss ++ ts) = (d.reactFirst ss).orElse (d.reactFirst ts) := by
  induction ss with
  | nil => rfl
  | cons s ss ih => simp [ih, Reaction.orElse_assoc]

@[simp] theorem readLine_nil (d : Diagram) (line : String) : d.readLine [] line = .skipped := rfl

theorem readLine_cons (d : Diagram) (f : Form) (forms : List Form) (line : String) :
    d.readLine (f :: forms) line =
      ((f.read? line.toList).map d.react).elim (d.readLine forms line)
        (·.orElse (d.readLine forms line)) := by
  unfold readLine readings
  cases h : f.read? line.toList <;> simp [h]

end Diagram

end SequenceDiagram
