import SequenceDiagram.Proofs.Diagram.Report

/-!
# Texts one after another

Two texts that are read one after the other leave a diagram as the text does that is made of both,
with a line feed between them. What is open at the end of the first text, and the counter, are there
for the second one; its lines have greater numbers in the joined text, and a block that is open at
the end of the first text is no fault of the joined one.

## Main definitions

* `Diagnostic.later`, `Reading.later`: entries and a reading after lines that come before them

## Main results

* `Diagram.readLines_later`: lines that are numbered on from a greater number
* `Diagram.readLines_lines_append`: the lines of a joined text
* `readText_append`: the reading of a joined text
-/

namespace SequenceDiagram

/-- An entry of a text that comes behind `n` other lines. -/
def Diagnostic.later (n : Nat) (e : Diagnostic) : Diagnostic :=
  match e.line with
  | some m => .atLine (m + n) e.kind
  | none => e

/-- A reading of lines that come behind `n` others. -/
def Reading.later (n : Nat) (r : Reading) : Reading :=
  { r with report := r.report.map (Diagnostic.later n) }

theorem Reading.later_prepend (n : Nat) (es : List Diagnostic) (r : Reading) :
    (r.prepend es).later n = (r.later n).prepend (es.map (Diagnostic.later n)) := by
  simp [later, prepend]

theorem Reaction.complaint_add (m : Int) (n : Nat) (r : Reaction) :
    r.complaint (m + n) = (r.complaint m).map (Diagnostic.later n) := by
  cases r <;> simp [complaint, Diagnostic.later, Diagnostic.atLine]

namespace Diagram

variable {forms : List Form} {d : Diagram} {text : String}

/-- Lines that come behind others are read alike and reported with greater numbers. -/
theorem readLines_later (forms : List Form) (d : Diagram) (m : Int) (n : Nat) (ls : List String) :
    readLines forms d (m + n) ls = (readLines forms d m ls).later n := by
  induction ls generalizing d m with
  | nil => rfl
  | cons l ls ih =>
    have hm : m + n + 1 = m + 1 + n := by omega
    cases hf : (d.readLine forms l).fault? with
    | some f => simp [readLines, hf, Reading.later]
    | none =>
      rw [readLines_cons hf, readLines_cons hf, Reading.later_prepend, hm, ih,
        Reaction.complaint_add]
      cases (d.readLine forms l).complaint m <;> rfl

/-- The lines of a joined text are read as those of its first part and then, if no fault has ended
the reading, as those of the second part. -/
theorem readLines_lines_append (forms : List Form) (d : Diagram) (s t : String) :
    readLines forms d 1 (Text.lines (s ++ "\n" ++ t)) =
      let r := readLines forms d 1 (Text.lines s)
      if r.fault = none then
        ((readLines forms r.diagram 1 (Text.lines t)).later (Text.lines s).length).prepend r.report
      else r := by
  simp only [Text.lines_append, readLines_append, readLines_later]

/-- The entries about lines are those of the report on a text that are not about its end. -/
theorem filter_report_readText (hf : (readLines forms d 1 (Text.lines text)).fault = none) :
    (readText forms d text).report.filter (·.kind ≠ .unterminated) =
      (readLines forms d 1 (Text.lines text)).report := by
  have hl : ∀ e ∈ (readLines forms d 1 (Text.lines text)).report, e.kind ≠ .unterminated := by
    intro e he
    obtain ⟨i, line, -, hc⟩ := (mem_report_readLines_iff hf).1 he
    cases hr : (before forms d (Text.lines text) i).readLine forms line <;>
      simp [hr, Reaction.complaint] at hc <;> simp [← hc, Diagnostic.atLine]
  rw [report_readText hf, List.filter_append, List.filter_eq_self.2 (by simpa using hl)]
  split <;> simp [Diagnostic.unterminated]

end Diagram

open Diagram in
/-- **Reading is compositional.** Two texts that are read one after the other, by a diagram in any
state, leave it in exactly the state in which the joined text leaves it, and a fault ends the
reading of the joined text exactly if it ends that of one of the two. The report on the joined text
is that on the first one, without the entry about its end, followed by that on the second one, with
its lines counted on. -/
theorem readText_append (forms : List Form) (d : Diagram) (s t : String) :
    let first := d.readText forms s
    let second := first.diagram.readText forms t
    let joined := d.readText forms (s ++ "\n" ++ t)
    (joined.fault = none ↔ first.fault = none ∧ second.fault = none) ∧
      (joined.fault = none →
        joined.diagram = second.diagram ∧
          joined.report = first.report.filter (·.kind ≠ .unterminated) ++
            second.report.map (Diagnostic.later (Text.lines s).length)) := by
  intro first second joined
  have hlines := readLines_lines_append forms d s t
  have hfault : joined.fault = none ↔ first.fault = none ∧ second.fault = none := by
    simp only [joined, first, second, fault_readText, diagram_readText, hlines]
    split
    · rename_i h
      simp [h, Reading.later]
    · rename_i h
      simp [h]
  refine ⟨hfault, fun hj => ?_⟩
  obtain ⟨hf, hs⟩ := hfault.1 hj
  simp only [joined, first, second, fault_readText, diagram_readText] at hj hf hs ⊢
  simp only [hf, if_true] at hlines
  refine ⟨by rw [hlines]; rfl, ?_⟩
  -- The end of the joined text is the end of the second one.
  rw [filter_report_readText hf, report_readText hj, report_readText hs, hlines]
  simp only [Reading.report_prepend, Reading.diagram_prepend, Reading.later, List.map_append,
    List.append_assoc]
  split <;> rename_i h <;> simp [h, Diagnostic.later, Diagnostic.unterminated]

/-- A block and the numbering go on over the cut; the line that is not taken is the second one of
the second text and the fourth one of the joined text. -/
theorem readText_append_open_block :
    let first := Diagram.empty.readText Form.table "autonumber 7\nloop a\r"
    let second := first.diagram.readText Form.table "A->B: x\nnothing"
    let joined := Diagram.empty.readText Form.table
      ("autonumber 7\nloop a\r" ++ "\n" ++ "A->B: x\nnothing")
    joined.fault = none ∧ first.report = [.unterminated] ∧
      second.report = [.atLine 2 .unrecognized, .unterminated] ∧
      joined.diagram = second.diagram ∧
      joined.report = [.atLine 4 .unrecognized, .unterminated] := by
  intro first second joined
  have hj : joined.fault = none := by decide
  have hf : first.report = [.unterminated] := by decide
  have hs : second.report = [.atLine 2 .unrecognized, .unterminated] := by decide
  obtain ⟨hd, hr⟩ := (readText_append Form.table .empty "autonumber 7\nloop a\r"
    "A->B: x\nnothing").2 hj
  refine ⟨hj, hf, hs, hd, ?_⟩
  calc joined.report
      = first.report.filter (·.kind ≠ .unterminated) ++ second.report.map (Diagnostic.later 2) := hr
    _ = [.atLine 4 .unrecognized, .unterminated] := by
        rw [hf, hs]
        decide

end SequenceDiagram
