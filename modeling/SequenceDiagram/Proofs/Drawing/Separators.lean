import SequenceDiagram.Proofs.Diagram.Nesting
import SequenceDiagram.Proofs.Diagram.Recovery
import SequenceDiagram.Proofs.Drawing.Marks
import SequenceDiagram.Proofs.Layout.Paths

/-!
# Frames and separators

A separator goes across the frame of the alternative that it stands in: both are inset by the same
distance from the edges of the drawing. Where the drawing is too narrow for the two insets, the
frame has no width left, but the line of the separator goes on from the one inset to the other,
from right to left.

## Main results

* `Placed.marks_block`, `Placed.marks_separator`: where the edges of a frame and the ends of a
  separator are
* `compile_separators`: the separators of a picture and the frames around them
* `separator_beyond_frame`: a separator that does not end where the frame ends
-/

namespace SequenceDiagram

open Metrics
open Quantity (units)

namespace Placed

variable {b : Placed} (r : Roster) (width : Nat)

/-- A frame is inset by 10 units for every block around it and 10 more, on both sides of the
drawing, and has no width where there is no room for that. -/
theorem marks_block {k : BlockKind} {children : List Element} {keyword comment : String}
    (he : b.element = .block k children) (hc : k.caption? = some (keyword, comment)) :
    let left : Int := 40 * (b.depth + 1)
    (b.shapes r (units width)).flatMap (Shape.marks 0 0) =
      Mark.frame left b.top.toQuarters (max (4 * width - left - left) 0)
        (4 * (b.height - frameGap : Nat)) keyword comment := by
  intro left
  have hleft : (0 : Int) + (units (frameInset * (b.depth + 1))).toQuarters = left := by
    simp only [Quantity.toQuarters_units, frameInset, left]
    omega
  have hwidth : (units width - units (frameInset * (b.depth + 1) * 2)).clamp.toQuarters =
      max (4 * width - left - left) 0 := by
    rw [Quantity.toQuarters_clamp, Quantity.toQuarters_sub]
    simp only [Quantity.toQuarters_units, frameInset, left]
    omega
  rw [shapes_of_caption? he hc, List.flatMap_singleton, Drawing.marks_frame, hleft, hwidth,
    Int.zero_add, Quantity.toQuarters_units]

/-- A separator is inset by 10 units for every block around it, on both sides of the drawing. -/
theorem marks_separator {condition : String} (he : b.element = .separator condition) :
    let left : Int := 40 * b.depth
    (b.shapes r (units width)).flatMap (Shape.marks 0 0) =
      Mark.separator left (4 * width - left) b.top.toQuarters condition := by
  intro left
  have hleft : (units (frameInset * b.depth)).toQuarters = left := by
    simp only [Quantity.toQuarters_units, frameInset, left]
    omega
  simp only [shapes, he]
  rw [Drawing.marks_separator, hleft, Quantity.toQuarters_units]
  simp only [Int.zero_add]

end Placed

namespace Diagram

/-- Every separator of a text is placed, and so is the alternative that it is a child of. -/
theorem exists_placed_separator {text : String} (hf : (read text).fault = none) {q : Path}
    {condition : String} (hq : (read text).diagram.element? q = some (.separator condition)) :
    ∃ a ∈ (read text).diagram.placed, ∃ b ∈ (read text).diagram.placed, ∃ i label children,
      q = a.path ++ [i] ∧ a.element = .block (.alternative label) children ∧
        b.path = q ∧ b.element = .separator condition := by
  obtain ⟨b, hb, hbq, hbe⟩ := Element.mem_layout_iff_get?.2 hq
  rcases List.eq_nil_or_concat q with rfl | ⟨p, i, rfl⟩
  · rw [element?_root, root] at hq
    simp at hq
  · rw [List.concat_eq_append] at hq hbq ⊢
    obtain ⟨label, children, hp⟩ : ∃ label children,
        (read text).diagram.element? p = some (.block (.alternative label) children) := by
      simp only [read, fault_readText, diagram_readText] at hf hq ⊢
      exact separators_readLines hf hq
    obtain ⟨a, ha, rfl, hae⟩ := Element.mem_layout_iff_get?.2 hp
    exact ⟨a, ha, b, hb, i, label, children, rfl, hae, hbq, hbe⟩

end Diagram

open Diagram in
/-- **A separator goes across the frame that it stands in, if the drawing is wide enough.** Every
separator of a text is a child of an alternative. The frame of the alternative and the line of the
separator begin on the same vertical, on the left. The line ends where the frame ends exactly if
there is room in the drawing for the inset on the left and the one on the right; else the frame has
no width, and the line ends on the left of the frame. -/
theorem compile_separators {text : String} {options : Options} {c : Compilation}
    (h : compile text options = .ok c) :
    let d := (read text).diagram
    let column (p : Participant) :=
      (p.shape (units (d.roster.headerHeight + d.root.height))).marks 0 0
    let marks (b : Placed) :=
      (b.shapes d.roster.seated (units d.roster.width)).flatMap (Shape.marks 0 0)
    d.draw.1.shapes.flatMap (Shape.marks 0 0) =
        d.roster.seated.flatMap column ++ d.placed.flatMap marks ∧
      ∀ q condition, d.element? q = some (.separator condition) →
        (∃ palette, options.palette = .ok palette ∧
          c.document = (d.draw.1.markup palette options.font).render) ∧
        ∃ a ∈ d.placed, ∃ b ∈ d.placed, ∃ i label children,
          q = a.path ++ [i] ∧ a.element = .block (.alternative label) children ∧
          b.path = q ∧ b.element = .separator condition ∧
          let left : Int := 40 * (a.depth + 1)
          let right : Int := 4 * d.draw.1.width - left
          let width := max (right - left) 0
          (∃ height, marks a = Mark.frame left a.top.toQuarters width height "alt" label) ∧
          marks b = Mark.separator left right b.top.toQuarters condition ∧
          (right = left + width ↔ 2 * left ≤ 4 * d.draw.1.width) := by
  obtain ⟨palette, hp, hf, hd, -, -⟩ := compile_eq_ok_iff.1 h
  intro d column marks
  have hm : d.MemorySound := memorySound_empty.readText text
  have hwidth : d.draw.1.width = d.roster.width := by rw [hm.draw_fst]
  refine ⟨hm.marks_draw, ?_⟩
  intro q condition hq
  obtain ⟨a, ha, b, hb, i, label, children, hqa, hae, hbq, hbe⟩ := exists_placed_separator hf hq
  have hdepth : (b.depth : Int) = a.depth + 1 := by
    rw [Placed.depth, hbq, hqa, List.length_append, List.length_singleton]
    exact Int.natCast_succ _
  have hframe := Placed.marks_block (k := .alternative label) d.roster.seated d.roster.width hae rfl
  have hline := Placed.marks_separator d.roster.seated d.roster.width hbe
  rw [hdepth] at hline
  rw [hwidth]
  refine ⟨?_, a, ha, b, hb, i, label, children, hqa, hae, hbq, hbe, ⟨_, hframe⟩, hline, by omega⟩
  -- The picture is not empty, as the separator is drawn.
  have hmarks : d.draw.1.shapes.flatMap (Shape.marks 0 0) ≠ [] := by
    rw [hm.marks_draw]
    intro hnil
    have hbm := List.flatMap_eq_nil_iff.1 (List.append_eq_nil_iff.1 hnil).2 b hb
    rw [hline] at hbm
    simp [Mark.separator] at hbm
  have hdoc := (Picture.document_eq_ok hd).resolve_left fun hn => hmarks (by rw [hn.1]; rfl)
  exact ⟨palette, hp, hdoc⟩

/-- A separator in a loop, in a drawing with two participants. -/
theorem compile_separators_in_loop :
    let text := "loop n\nalt a\nA->B: x\nelse b\nend\nend"
    let d := (read text).diagram
    ∃ c, compile text {} = .ok c ∧ d.draw.1.width = 285 ∧
      ∃ a ∈ d.placed, ∃ b ∈ d.placed, ∃ top height label y,
        (a.shapes d.roster.seated (units d.roster.width)).flatMap (Shape.marks 0 0) =
            Mark.frame 120 top 900 height "alt" label ∧
          (b.shapes d.roster.seated (units d.roster.width)).flatMap (Shape.marks 0 0) =
            Mark.separator 120 1020 y "b" := by
  have hq : (read "loop n\nalt a\nA->B: x\nelse b\nend\nend").diagram.element? [0, 0, 1] =
      some (.separator "b") := rfl
  intro text d
  have hok : (compile text {}).isOk = true := by decide +kernel
  obtain ⟨c, hc⟩ := exists_eq_ok_of_isOk hok
  have hwidth : d.draw.1.width = 285 := by decide +kernel
  obtain ⟨-, hs⟩ := compile_separators hc
  obtain ⟨-, a, ha, b, hb, i, label, children, hqa, -, -, -, ⟨height, hframe⟩, hline, -⟩ :=
    hs _ _ hq
  have hdepth : a.depth = 2 := by
    have hl := congrArg List.length hqa
    rw [List.length_append] at hl
    exact Nat.add_right_cancel hl.symm
  rw [hdepth, hwidth] at hframe hline
  exact ⟨c, hc, hwidth, a, ha, b, hb, _, height, label, _, hframe, hline⟩

/-- In a drawing without participants the frame of an alternative has no width, and the line of the
separator in it goes from the left edge of the frame to the left. -/
theorem separator_beyond_frame :
    ¬ ∀ (text : String) (options : Options) (c : Compilation), compile text options = .ok c →
      let d := (read text).diagram
      let marks (b : Placed) :=
        (b.shapes d.roster.seated (units d.roster.width)).flatMap (Shape.marks 0 0)
      ∀ a ∈ d.placed, ∀ b ∈ d.placed, ∀ i condition,
        b.path = a.path ++ [i] → b.element = .separator condition →
        ∀ left top width height, .box left top width height .none 0 ∈ marks a →
          ∀ x₁ y₁ x₂ y₂, .line x₁ y₁ x₂ y₂ true ∈ marks b → x₁ = left ∧ x₂ = left + width := by
  have ha : (read "alt a\nelse b\nend").diagram.element? [0] =
      some (.block (.alternative "a") [.separator "b"]) := rfl
  have hb : (read "alt a\nelse b\nend").diagram.element? [0, 0] = some (.separator "b") := rfl
  have hwidth : (read "alt a\nelse b\nend").diagram.roster.width = 0 := by decide
  have hok : (compile "alt a\nelse b\nend" {}).isOk = true := by decide +kernel
  intro h
  obtain ⟨c, hc⟩ := exists_eq_ok_of_isOk hok
  obtain ⟨a, ha, hap, hae⟩ := Element.mem_layout_iff_get?.2 ha
  obtain ⟨b, hb, hbp, hbe⟩ := Element.mem_layout_iff_get?.2 hb
  have hframe := Placed.marks_block (read "alt a\nelse b\nend").diagram.roster.seated 0 hae rfl
  have hline := Placed.marks_separator (read "alt a\nelse b\nend").diagram.roster.seated 0 hbe
  rw [Placed.depth, hap] at hframe
  rw [Placed.depth, hbp] at hline
  have hclaim := h _ _ c hc a ha b hb 0 "b" (by rw [hap, hbp]; rfl) hbe
  beta_reduce at hclaim
  rw [hwidth, hframe, hline] at hclaim
  have hends := hclaim 80 a.top.toQuarters 0 _ (List.mem_cons_of_mem _ List.mem_cons_self)
    80 b.top.toQuarters (-80) b.top.toQuarters List.mem_cons_self
  omega

end SequenceDiagram
