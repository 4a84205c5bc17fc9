import SequenceDiagram.Drawing.Shape
import SequenceDiagram.Metrics

/-!
# Parts of a drawing

Lifelines, labelled boxes, frames, separators and arrows, each as shapes from its own corner.

## Main definitions

* `Drawing.labelledBox`, `Drawing.lifeline`: notes and participants
* `Drawing.frame`, `Drawing.separator`: blocks
* `Drawing.arrowhead`, `Drawing.arrow`: messages
-/

namespace SequenceDiagram.Drawing

open Metrics Shape
open Quantity (units)

/-- Lines of text below each other from `y` on, with their middles at `x`. -/
def centredLines (x : Quantity) (y : Nat) (lines : List String) : List Shape :=
  lines.mapIdx fun i content => text x (units (i * lineHeight + y)) content true

/-- A box of the width of a participant that holds lines of text. -/
def labelledBox (x y : Quantity) (lines : List String) (paint : Paint) : Shape :=
  group x y <|
    box 0 0 (units boxWidth) (units (textHeight lines)) paint (units boxRadius) ::
      centredLines (.half boxWidth) lineHeight lines

/-- A participant box, its copy at the bottom and the line between them. -/
def lifeline (x y height : Quantity) (lines : List String) : Shape :=
  group x y
    [line (.half boxWidth) (units (textHeight lines)) (.half boxWidth) height false,
      labelledBox 0 0 lines .gradient,
      labelledBox 0 height lines .gradient]

/-- The frame of a block. Its keyword stands in a notch, its comment beside it in brackets, if
it is not empty. -/
def frame (x y width height : Quantity) (keyword comment : String) : Shape :=
  group x y <|
    [area 0 0 (units notchWidth) (units notchHeight) .fill 0,
      box 0 0 width height .none 0,
      line 0 (units notchHeight) (units (notchWidth - notchBevel)) (units notchHeight) false,
      line (units (notchWidth - notchBevel)) (units notchHeight)
        (units notchWidth) (units (notchHeight - notchBevel)) false,
      line (units notchWidth) (units (notchHeight - notchBevel)) (units notchWidth) 0 false,
      text (units keywordX) (units labelDrop) keyword true] ++
    if comment.isEmpty then []
    else [text (units commentX) (units labelDrop) ("[" ++ comment ++ "]") false]

/-- A dotted line across a drawing, inset on both sides, with a condition below it. -/
def separator (left y width : Quantity) (condition : String) : List Shape :=
  [line left y (width - left) y true,
    text (left + units commentX) (y + units labelDrop) ("[" ++ condition ++ "]") false]

/-- An arrowhead with its tip at a point. -/
def arrowhead (x y : Quantity) (pointingRight openHead : Bool) : Shape :=
  let back : Quantity := .whole (if pointingRight then -headLength else headLength)
  group x y
    [polygon [(back, .whole (-headHalfWidth)), (0, 0), (back, .whole headHalfWidth)]
      (if openHead then .fill else .arrowFill)]

/-- How an arrow looks. -/
structure ArrowStyle where
  pointingRight : Bool
  dotted : Bool := false
  /-- The arrow returns to where it starts. -/
  loop : Bool := false
  /-- The arrow has a head at both ends. -/
  double : Bool := false
  openHead : Bool := false

/-- The line of an arrow over some slots and its heads, at the height `y`. -/
def shaft (length y : Int) (style : ArrowStyle) : List Shape :=
  if style.loop then
    let bottom := y + loopHeight
    [line 0 (.whole y) (units loopWidth) (.whole y) style.dotted,
      line (units loopWidth) (.whole y) (units loopWidth) (.whole bottom) style.dotted,
      line (units loopWidth) (.whole bottom) 0 (.whole bottom) style.dotted,
      arrowhead 0 (.whole bottom) false false]
  else
    line 0 (.whole y) (.whole length) (.whole y) style.dotted ::
      if style.double then
        [arrowhead (.whole length) (.whole y) true style.openHead,
          arrowhead 0 (.whole y) false style.openHead]
      else
        let tip := if style.pointingRight then length else 0
        [arrowhead (.whole tip) (.whole y) style.pointingRight style.openHead]

/-- An arrow over some slots, below the last of its lines of text. -/
def arrow (x y : Quantity) (span : Int) (lines : List String) (style : ArrowStyle) : Shape :=
  let length := slotWidth * span
  group x y <|
    shaft length (7 + ((lines.length : Int) - 1) * lineHeight) style ++
      centredLines (.half length) 0 lines

end SequenceDiagram.Drawing
