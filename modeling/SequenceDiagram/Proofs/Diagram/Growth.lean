import SequenceDiagram.Proofs.Diagram.Composition
import SequenceDiagram.Proofs.Diagram.Mentions
import SequenceDiagram.Proofs.Element.Growth

/-!
# Reading on

What a text has brought about is not changed by the lines that come after it. A diagram only grows
while lines are read: participants come behind those that are there, and elements behind those of
the open block; nothing is labelled, numbered or moved afterwards.

## Main definitions

* `Diagram.GrowsTo`: a diagram that still has everything that another one has

## Main results

* `Diagram.growsTo_effect`: a statement that is taken lets a diagram grow
* `Diagram.growsTo_readLines`: so do several lines
* `readText_grows`: what a text brings about is a part of what a longer one does
-/

namespace SequenceDiagram

namespace Roster

/-- A mention leaves the participants that are there as they are. -/
theorem prefix_registerAll (r : Roster) (mentions : List Mention) :
    r <+: r.registerAll mentions := by
  rw [registerAll_eq]
  exact List.prefix_append ..

end Roster

namespace Diagram

variable {forms : List Form} {d d' d'' : Diagram} {ls : List String} {number : Int}

/-- A diagram has all participants and elements that another one has, in the same places. -/
structure GrowsTo (d d' : Diagram) : Prop where
  roster : d.roster <+: d'.roster
  root : d.root.GrowsTo d'.root

namespace GrowsTo

theorem refl (d : Diagram) : d.GrowsTo d := ⟨List.prefix_refl _, .refl _⟩

theorem trans (h : d.GrowsTo d') (h' : d'.GrowsTo d'') : d.GrowsTo d'' :=
  ⟨h.roster.trans h'.roster, h.root.trans h'.root⟩

end GrowsTo

/-- The tree after a statement that is taken is as before or has one more element. -/
theorem growsTo_root_effect (d : Diagram) (st : Statement) : d.root.GrowsTo (d.effect st).root := by
  have hadd : ∀ (d' : Diagram) (e : Element), d'.root = d.root →
      d.root.GrowsTo (d'.add e).root := by
    intro d' e h
    rw [Diagram.add, root_addAt, h]
    exact d.root.growsTo_append _ e
  cases st with
  | openParallel => exact hadd d (.block .parallel []) rfl
  | openOption => exact hadd d (.block (.framed "opt" "") []) rfl
  | openLoop label => exact hadd d (.block (.framed "loop" label) []) rfl
  | openAlternative condition => exact hadd d (.block (.alternative condition) []) rfl
  | separator condition => exact hadd d _ rfl
  | state name text => exact hadd (d.mention (.note ⟨name, Text.labelLines text⟩)) _ rfl
  | signal source double dotted openHead target text =>
    let x : Signal := ⟨source, target, Text.labelLines text, dotted, double, openHead⟩
    exact hadd { d.mention (.signal x) with counter := d.counter.map (· + 1) } _ rfl
  | _ => exact .refl _

/-- **A statement that is taken lets a diagram grow.** -/
theorem growsTo_effect (d : Diagram) (st : Statement) : d.GrowsTo (d.effect st) where
  roster := by
    rw [roster_effect]
    exact d.roster.prefix_registerAll _
  root := d.growsTo_root_effect st

/-- **Lines let a diagram grow.** -/
theorem growsTo_readLines (hf : (readLines forms d number ls).fault = none) :
    d.GrowsTo (readLines forms d number ls).diagram := by
  refine readLines_preserves (P := d.GrowsTo) ?_ hf (.refl d)
  intro d' line hl h
  cases ht : d'.taken? forms line with
  | none => rwa [next_of_not_taken hl ht]
  | some st =>
    rw [next_eq_effect hl ht]
    exact h.trans (d'.growsTo_effect st)

end Diagram

open Diagram in
/-- **Reading is append-only.** What a text brings about is a part of what it does with another one
behind it, by a diagram in any state. The participants are the first ones of the longer text, with
their labels, and the entries about lines the first ones of its report. Every element of the tree
is in the later tree at the same path, and so inside as many blocks; by itself it is the same, with
its kind, its texts and its participants, and the elements of a block are the first ones of the
later block. -/
theorem readText_grows (forms : List Form) (d : Diagram) {s t : String}
    (hf : (d.readText forms (s ++ "\n" ++ t)).fault = none) :
    let first := d.readText forms s
    let joined := d.readText forms (s ++ "\n" ++ t)
    first.fault = none ∧
      first.diagram.roster <+: joined.diagram.roster ∧
      first.report.filter (·.kind ≠ .unterminated) <+:
        joined.report.filter (·.kind ≠ .unterminated) ∧
      ∀ p e, first.diagram.element? p = some e → ∃ e', joined.diagram.element? p = some e' ∧
        e'.own = e.own ∧ e.children.map Element.own <+: e'.children.map Element.own := by
  intro first joined
  have hlines := readLines_lines_append forms d s t
  have hfirst : first.fault = none ∧
      (readLines forms first.diagram 1 (Text.lines t)).fault = none := by
    simp only [fault_readText, hlines, first, diagram_readText] at hf ⊢
    split at hf
    · rename_i h
      exact ⟨h, hf⟩
    · rename_i h
      exact absurd hf h
  simp only [first, joined, fault_readText, diagram_readText] at hf hfirst ⊢
  simp only [hfirst.1, if_true] at hlines
  -- The longer text goes on from the diagram that the shorter one has led to.
  have hgrow := growsTo_readLines hfirst.2
  refine ⟨hfirst.1, ?_, ?_, ?_⟩
  · rw [hlines]
    exact hgrow.roster
  · rw [filter_report_readText hfirst.1, filter_report_readText hf, hlines]
    exact List.prefix_append ..
  · intro p e he
    rw [hlines]
    exact hgrow.root p e he

/-- A loop is open at the end of the first text; the second one declares a participant too late,
goes on in the loop and closes it, and once more than can be. -/
theorem readText_grows_open_loop :
    let joined := Diagram.empty.readText Form.table
      ("participant \"Ann\" as A\nloop n\nA->B: x\nno" ++ "\n" ++
        "participant \"Bob\" as B\nB->A: y\nend\nend")
    let x : Element := .signal { source := "A", target := "B", text := ["x"] }
    joined.fault = none ∧
      [⟨"A", ["Ann"], 0⟩, ⟨"B", ["B"], 0⟩] <+: joined.diagram.roster ∧
      [.atLine 4 .unrecognized] <+: joined.report.filter (·.kind ≠ .unterminated) ∧
      ∃ e', joined.diagram.element? [0] = some e' ∧ e'.own = .block (.framed "loop" "n") [] ∧
        [x] <+: e'.children.map Element.own := by
  intro joined x
  have hj : joined.fault = none := by decide
  obtain ⟨-, hroster, hreport, htree⟩ := readText_grows Form.table .empty hj
  have hr : (Diagram.empty.readText Form.table
      "participant \"Ann\" as A\nloop n\nA->B: x\nno").diagram.roster =
        [⟨"A", ["Ann"], 0⟩, ⟨"B", ["B"], 0⟩] := by decide
  have he : (Diagram.empty.readText Form.table
      "participant \"Ann\" as A\nloop n\nA->B: x\nno").report.filter (·.kind ≠ .unterminated) =
        [.atLine 4 .unrecognized] := by decide
  rw [hr] at hroster
  rw [he] at hreport
  exact ⟨hj, hroster, hreport, htree [0] (.block (.framed "loop" "n") [x]) rfl⟩

end SequenceDiagram
