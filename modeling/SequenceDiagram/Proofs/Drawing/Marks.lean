import SequenceDiagram.Proofs.Drawing.Labels

/-!
# Marks on the canvas

A shape whose coordinates count from a point leaves marks on the canvas, each of which stands where
it stands whatever groups it came from. Places and lengths are exact and counted in quarters, so
that half of the width of a box is a whole number.

## Main definitions

* `Mark`: what a shape leaves on the canvas
* `Mark.abscissas`, `Mark.Between`: how far a mark reaches to the left and to the right
* `Mark.head`, `Mark.lines`: arrowheads and lines of text
* `Mark.frame`, `Mark.separator`: frames and separators
* `Shape.marks`: the marks of a shape
* `Drawing.ArrowStyle.straight`, `Drawing.ArrowStyle.returning`: the marks of an arrow

## Main results

* `Drawing.marks_labelledBox`, `Drawing.marks_lifeline`: boxes and lifelines
* `Drawing.marks_frame`, `Drawing.marks_separator`: frames and separators
* `Drawing.marks_shaft_straight`, `Drawing.marks_shaft_returning`, `Drawing.marks_arrow`: arrows
  between two verticals, arrows that return to where they start, and their texts
* `Diagram.MemorySound.marks_draw`: the marks of a picture
-/

namespace SequenceDiagram

/-- What a shape leaves on the canvas. -/
inductive Mark where
  /-- A rectangle without a border. -/
  | area (x y width height : Int) (paint : Paint) (radius : Int)
  /-- A rectangle with a border. -/
  | box (x y width height : Int) (paint : Paint) (radius : Int)
  /-- A line between two points. -/
  | line (x₁ y₁ x₂ y₂ : Int) (dotted : Bool)
  /-- A polygon with a border. -/
  | polygon (points : List (Int × Int)) (paint : Paint)
  /-- A line of text that begins at a point, or has its middle there. -/
  | text (x y : Int) (content : String) (centred : Bool)
deriving DecidableEq

namespace Mark

/-- Where the edges, ends, corners and texts of a mark are between left and right. -/
def abscissas : Mark → List Int
  | area x _ width _ _ _ => [x, x + width]
  | box x _ width _ _ _ => [x, x + width]
  | line x₁ _ x₂ _ _ => [x₁, x₂]
  | polygon points _ => points.map Prod.fst
  | text x _ _ _ => [x]

/-- A mark is between two verticals. -/
def Between (low high : Int) (m : Mark) : Prop := ∀ x ∈ m.abscissas, low ≤ x ∧ x ≤ high

/-- Lines of text below each other with their middles on a vertical. -/
def lines (x y : Int) (contents : List String) : List Mark :=
  contents.mapIdx fun i content => text x (y + 80 * i) content true

/-- An arrowhead with its tip at a point and its base 15 units away on the side of another vertical
than that of the tip. -/
def head (tip y other : Int) (paint : Paint) : Mark :=
  let base := tip + 60 * (other - tip).sign
  polygon [(base, y - 20), (tip, y), (base, y + 20)] paint

/-- The marks of a frame: the notch for its keyword in the upper left corner, the rectangle, and the
keyword and the comment, if there is one. -/
def frame (left top width height : Int) (keyword comment : String) : List Mark :=
  [area left top 280 120 .fill 0,
    box left top width height .none 0,
    line left (top + 120) (left + 240) (top + 120) false,
    line (left + 240) (top + 120) (left + 280) (top + 80) false,
    line (left + 280) (top + 80) (left + 280) top false,
    text (left + 120) (top + 80) keyword true] ++
    (bracketed comment).map fun content => text (left + 360) (top + 80) content false

/-- The marks of a separator: a dotted line from one vertical to another and the condition. -/
def separator (left right y : Int) (condition : String) : List Mark :=
  [line left y right y true, text (left + 360) (y + 80) ("[" ++ condition ++ "]") false]

section

variable {low high x y : Int}

@[simp] theorem between_box {width height radius : Int} {paint : Paint} :
    (box x y width height paint radius).Between low high ↔
      (low ≤ x ∧ x ≤ high) ∧ low ≤ x + width ∧ x + width ≤ high := by
  simp [Between, abscissas]

@[simp] theorem between_line {x₁ y₁ x₂ y₂ : Int} {dotted : Bool} :
    (line x₁ y₁ x₂ y₂ dotted).Between low high ↔
      (low ≤ x₁ ∧ x₁ ≤ high) ∧ low ≤ x₂ ∧ x₂ ≤ high := by
  simp [Between, abscissas]

theorem Between.mono {low' high' : Int} {m : Mark} (h : m.Between low high) (hl : low' ≤ low)
    (hh : high ≤ high') : m.Between low' high' :=
  fun x hx => ⟨Int.le_trans hl (h x hx).1, Int.le_trans (h x hx).2 hh⟩

theorem between_lines {contents : List String} (hl : low ≤ x) (hh : x ≤ high) :
    ∀ m ∈ lines x y contents, m.Between low high := by
  intro m hm
  obtain ⟨i, hi, rfl⟩ := List.mem_mapIdx.1 hm
  simpa [Between, abscissas] using ⟨hl, hh⟩

/-- A head is between its tip and the vertical on the side of which its base is, if this is far
enough away. -/
theorem between_head {tip other : Int} {paint : Paint} (ht : low ≤ tip ∧ tip ≤ high)
    (ho : low ≤ other ∧ other ≤ high) (hd : 60 ≤ (other - tip).natAbs) :
    (head tip y other paint).Between low high := by
  have hbase : low ≤ tip + 60 * (other - tip).sign ∧ tip + 60 * (other - tip).sign ≤ high := by
    rcases Int.lt_or_gt_of_ne (show other - tip ≠ 0 by omega) with h | h
    · rw [Int.sign_eq_neg_one_of_neg h]
      omega
    · rw [Int.sign_eq_one_of_pos h]
      omega
  simp only [Between, head, abscissas, List.map_cons, List.map_nil, List.forall_mem_cons]
  exact ⟨hbase, ht, hbase, by simp⟩

end

end Mark

namespace Shape

mutual

/-- The marks of a shape whose coordinates count from a point. -/
def marks (x y : Int) : Shape → List Mark
  | area x' y' width height paint radius =>
    [.area (x + x'.toQuarters) (y + y'.toQuarters) width.toQuarters height.toQuarters paint
      radius.toQuarters]
  | box x' y' width height paint radius =>
    [.box (x + x'.toQuarters) (y + y'.toQuarters) width.toQuarters height.toQuarters paint
      radius.toQuarters]
  | line x₁ y₁ x₂ y₂ dotted =>
    [.line (x + x₁.toQuarters) (y + y₁.toQuarters) (x + x₂.toQuarters) (y + y₂.toQuarters) dotted]
  | polygon points paint =>
    [.polygon (points.map fun p => (x + p.1.toQuarters, y + p.2.toQuarters)) paint]
  | text x' y' content centred => [.text (x + x'.toQuarters) (y + y'.toQuarters) content centred]
  | group x' y' shapes => marksAll (x + x'.toQuarters) (y + y'.toQuarters) shapes

/-- The marks of several shapes. -/
def marksAll (x y : Int) : List Shape → List Mark
  | [] => []
  | s :: ss => s.marks x y ++ marksAll x y ss

end

@[simp] theorem marksAll_eq_flatMap (x y : Int) (ss : List Shape) :
    marksAll x y ss = ss.flatMap (marks x y) := by
  induction ss with
  | nil => rfl
  | cons s ss ih => simp [marksAll, ih]

theorem marks_group (x y : Int) (x' y' : Quantity) (ss : List Shape) :
    (group x' y' ss).marks x y = ss.flatMap (marks (x + x'.toQuarters) (y + y'.toQuarters)) := by
  rw [marks, marksAll_eq_flatMap]

end Shape

namespace Drawing

open Shape Metrics
open Quantity (units)

variable (x y : Int) (lines : List String)

attribute [local simp] marks

theorem marks_centredLines (x' : Quantity) (y' : Nat) :
    (centredLines x' y' lines).flatMap (marks x y) =
      Mark.lines (x + x'.toQuarters) (y + 4 * y') lines := by
  have hmark (i : Nat) (content : String) :
      marks x y (text x' (units (i * lineHeight + y')) content true) =
        [.text (x + x'.toQuarters) (y + 4 * y' + 80 * i) content true] := by
    simp only [marks, Quantity.toQuarters_units, lineHeight]
    congr 2
    omega
  rw [centredLines, List.mapIdx_eq_zipIdx_map, List.flatMap_map, Mark.lines,
    List.mapIdx_eq_zipIdx_map]
  simp only [hmark]
  rw [List.map_eq_flatMap]

/-- A box and the lines of text in it. -/
theorem marks_labelledBox (x' y' : Quantity) (paint : Paint) :
    (labelledBox x' y' lines paint).marks x y =
      .box (x + x'.toQuarters) (y + y'.toQuarters) 500 (4 * textHeight lines) paint 20 ::
        Mark.lines (x + x'.toQuarters + 250) (y + y'.toQuarters + 80) lines := by
  rw [labelledBox, marks_group, List.flatMap_cons, marks_centredLines]
  simp [boxWidth, boxRadius, lineHeight]

/-- The line of a participant and its two boxes. -/
theorem marks_lifeline (x' y' height : Quantity) :
    let left := x + x'.toQuarters
    let top := y + y'.toQuarters
    (lifeline x' y' height lines).marks x y =
      .line (left + 250) (top + 4 * textHeight lines) (left + 250) (top + height.toQuarters)
          false ::
        (.box left top 500 (4 * textHeight lines) .gradient 20 ::
            Mark.lines (left + 250) (top + 80) lines ++
          .box left (top + height.toQuarters) 500 (4 * textHeight lines) .gradient 20 ::
            Mark.lines (left + 250) (top + height.toQuarters + 80) lines) := by
  intro left top
  simp only [lifeline, marks_group, List.flatMap_cons, List.flatMap_nil, marks_labelledBox, marks,
    List.append_nil, List.singleton_append, Quantity.toQuarters_half, Quantity.toQuarters_units,
    Quantity.toQuarters_zero, Int.add_zero]
  rfl

/-- A frame with its notch, its keyword and, in brackets, its comment. -/
theorem marks_frame (x' y' width height : Quantity) (keyword comment : String) :
    (frame x' y' width height keyword comment).marks x y =
      Mark.frame (x + x'.toQuarters) (y + y'.toQuarters) width.toQuarters height.toQuarters keyword
        comment := by
  have hcomment : (if comment.isEmpty then []
      else [text (units commentX) (units labelDrop) ("[" ++ comment ++ "]") false]).flatMap
        (marks (x + x'.toQuarters) (y + y'.toQuarters)) =
      (bracketed comment).map fun content =>
        .text (x + x'.toQuarters + 360) (y + y'.toQuarters + 80) content false := by
    by_cases h : comment = "" <;> simp [h, bracketed]
  rw [frame, marks_group, List.flatMap_append, hcomment, Mark.frame]
  simp [notchWidth, notchHeight, notchBevel]

/-- The line of a separator ends as far from the right edge of the drawing as it begins from the
left one. -/
theorem marks_separator (left y' width : Quantity) (condition : String) :
    (separator left y' width condition).flatMap (marks x y) =
      Mark.separator (x + left.toQuarters) (x + (width.toQuarters - left.toQuarters))
        (y + y'.toQuarters) condition := by
  simp [separator, Mark.separator, Int.add_assoc]

/-- An arrowhead points to a vertical from the left or from the right. -/
theorem marks_arrowhead (x' y' : Quantity) (openHead pointingRight : Bool) (other : Int)
    (h : if pointingRight then other < x + x'.toQuarters else x + x'.toQuarters < other) :
    (arrowhead x' y' pointingRight openHead).marks x y =
      [.head (x + x'.toQuarters) (y + y'.toQuarters) other
        (if openHead then .fill else .arrowFill)] := by
  have hbase : x + x'.toQuarters + 4 * (if pointingRight then -headLength else headLength) =
      x + x'.toQuarters + 60 * (other - (x + x'.toQuarters)).sign := by
    cases pointingRight with
    | true =>
      rw [Int.sign_eq_neg_one_of_neg (by simp at h; omega)]
      simp [headLength]
    | false =>
      rw [Int.sign_eq_one_of_pos (by simp at h; omega)]
      simp [headLength]
  simp only [arrowhead, marks_group, List.flatMap_cons, List.flatMap_nil, List.append_nil, marks,
    List.map_cons, List.map_nil, Quantity.toQuarters_whole, Quantity.toQuarters_zero, hbase,
    headHalfWidth, Mark.head, Int.add_zero]
  rfl

/-- The colour of the heads of an arrow. -/
def ArrowStyle.paint (style : ArrowStyle) : Paint := if style.openHead then .fill else .arrowFill

/-- The marks of an arrow that goes straight from a vertical to another one on its right, without
its lines of text. -/
def ArrowStyle.straight (style : ArrowStyle) (left right y : Int) : List Mark :=
  .line left y right y style.dotted ::
    if style.double then [.head right y left style.paint, .head left y right style.paint]
    else [if style.pointingRight then .head right y left style.paint
      else .head left y right style.paint]

/-- The marks of an arrow that returns to the vertical where it starts, without its lines of text:
30 units to the right, 20 units down and back to the head, which is always closed. -/
def ArrowStyle.returning (style : ArrowStyle) (left y : Int) : List Mark :=
  [.line left y (left + 120) y style.dotted,
    .line (left + 120) y (left + 120) (y + 80) style.dotted,
    .line (left + 120) (y + 80) left (y + 80) style.dotted,
    .head left (y + 80) (left + 120) .arrowFill]

theorem marks_shaft_straight {length : Int} (hl : 0 < length) (y' : Int) {style : ArrowStyle}
    (h : style.loop = false) :
    (shaft length y' style).flatMap (marks x y) =
      style.straight x (x + 4 * length) (y + 4 * y') := by
  have hright := marks_arrowhead x y (.whole length) (.whole y') style.openHead true x
    (by simp; omega)
  have hleft := marks_arrowhead x y 0 (.whole y') style.openHead false
    (x + 4 * length) (by simp; omega)
  simp only [Quantity.toQuarters_whole, Quantity.toQuarters_zero, Int.add_zero] at hright hleft
  rw [shaft, ArrowStyle.straight]
  simp only [h, Bool.false_eq_true, if_false, List.flatMap_cons, marks, Quantity.toQuarters_whole,
    Quantity.toQuarters_zero, Int.add_zero, List.singleton_append]
  congr 1
  split
  · rw [List.flatMap_cons, List.flatMap_singleton, hright, hleft]
    rfl
  · rw [List.flatMap_singleton]
    split
    · rename_i hp
      rw [hp, hright]
      rfl
    · rename_i hp
      rw [Bool.not_eq_true] at hp
      rw [hp]
      exact hleft

theorem marks_shaft_returning (length y' : Int) {style : ArrowStyle} (h : style.loop = true) :
    (shaft length y' style).flatMap (marks x y) = style.returning x (y + 4 * y') := by
  have hhead := marks_arrowhead x y 0 (.whole (y' + loopHeight)) false false
    (x + 120) (by rw [if_neg Bool.false_ne_true, Quantity.toQuarters_zero]; omega)
  have hbottom : y + 4 * (y' + loopHeight) = y + 4 * y' + 80 := by
    simp only [loopHeight]
    omega
  simp only [Quantity.toQuarters_whole, Quantity.toQuarters_zero, Int.add_zero, hbottom] at hhead
  rw [shaft, ArrowStyle.returning]
  simp only [h, if_true, List.flatMap_cons, List.flatMap_nil, marks, Quantity.toQuarters_whole,
    Quantity.toQuarters_zero, Quantity.toQuarters_units, Int.add_zero, hbottom, hhead, loopWidth]
  rfl

/-- An arrow over some slots and its lines of text, the middles of which are over its middle. -/
theorem marks_arrow (x' y' : Quantity) (span : Int) (style : ArrowStyle) :
    (arrow x' y' span lines style).marks x y =
      (shaft (150 * span) (7 + ((lines.length : Int) - 1) * 20) style).flatMap
          (marks (x + x'.toQuarters) (y + y'.toQuarters)) ++
        Mark.lines (x + x'.toQuarters + 300 * span) (y + y'.toQuarters) lines := by
  have hmiddle : 2 * (150 * span) = 300 * span := by omega
  rw [arrow, marks_group, List.flatMap_append, marks_centredLines, Quantity.toQuarters_half]
  simp only [slotWidth, lineHeight, Int.cast_ofNat_Int, hmiddle, Int.mul_zero, Int.add_zero]

end Drawing

open Quantity (units) in
/-- The marks of a picture are those of the participants and those of the elements. -/
theorem Diagram.MemorySound.marks_draw {d : Diagram} (h : d.MemorySound) :
    d.draw.1.shapes.flatMap (Shape.marks 0 0) =
      d.roster.seated.flatMap
          (fun p => (p.shape (units (d.roster.headerHeight + d.root.height))).marks 0 0) ++
        d.placed.flatMap fun b =>
          (b.shapes d.roster.seated (units d.roster.width)).flatMap (Shape.marks 0 0) := by
  rw [h.draw_fst, List.flatMap_append, List.flatMap_map, List.flatMap_assoc]

end SequenceDiagram
