import SequenceDiagram.Drawing.Shape
import SequenceDiagram.Markup.Basic
import SequenceDiagram.Palette

/-!
# Markup of shapes

Every shape is one element of the document; a palette gives the colours. Only the style of an
element depends on the palette.

## Main definitions

* `Paint.colour`: what a shape is filled with, in a palette
* `Shape.markup`: the element of a shape
* `Palette.gradient`: the definition of the gradient of participant boxes
-/

namespace SequenceDiagram

open Text

/-- The name of the gradient of participant boxes. -/
def gradientName : String := "grad1"

/-- What a shape is filled with, in a palette. -/
def Paint.inPalette (p : Palette) : Paint → String
  | fill => p.fill
  | arrowFill => p.arrowFill
  | gradient => "url(#" ++ gradientName ++ ")"
  | none => "none"
  | colour name => name

namespace Attribute

/-- The style of a shape without a border. -/
def areaStyle (p : Palette) (paint : Paint) : Attribute :=
  verbatim "style" ("fill: " ++ escape (paint.inPalette p) ++ ";")

/-- The style of a rectangle with a border. -/
def boxStyle (p : Palette) (paint : Paint) : Attribute :=
  verbatim "style" ("fill: " ++ escape (paint.inPalette p) ++ ";stroke:" ++ escape p.stroke ++
    ";stroke-width:2;")

/-- The style of a line. -/
def lineStyle (p : Palette) : Attribute :=
  verbatim "style" ("stroke:" ++ escape p.stroke ++ ";stroke-width:2")

/-- The style of a polygon. -/
def polygonStyle (p : Palette) (paint : Paint) : Attribute :=
  verbatim "style" ("fill: " ++ escape (paint.inPalette p) ++ ";stroke:" ++ escape p.stroke ++
    ";stroke-width:1px")

/-- The style of a text; none if the text begins at its point and has no colour of its own. -/
def textStyle? (p : Palette) (centred : Bool) : Option Attribute :=
  let anchor := if centred then ["text-anchor:middle"] else []
  let colour := match p.text with
    | some c => if c.isEmpty then [] else ["fill:" ++ escape c]
    | none => []
  if anchor ++ colour = [] then none
  else some (verbatim "style" (";".intercalate (anchor ++ colour)))

/-- The dashes of a dotted line. -/
def dashes? (dotted : Bool) : Option Attribute :=
  if dotted then some (verbatim "stroke-dasharray" "10,5") else none

end Attribute

open Attribute

/-- The coordinates of a point. -/
def coordinates (x y : Quantity) : List Fragment := [.measure x, .verbatim ",", .measure y]

/-- The points of a polygon. -/
def pointList (points : List (Quantity × Quantity)) : List Fragment :=
  [Fragment.verbatim " "].intercalate (points.map fun p => coordinates p.1 p.2)

/-- The attributes that place a rectangle. -/
def rectangle (x y width height radius : Quantity) : List Attribute :=
  [measure "x" x, measure "y" y, measure "width" width, measure "height" height,
    measure "ry" radius]

/-- The group of some markup, whose coordinates count from a point. -/
def shifted (x y : Quantity) (children : List Markup) : Markup :=
  .element .g [⟨"transform", .verbatim "translate(" :: coordinates x y ++ [.verbatim ")"]⟩] children

namespace Shape

mutual

/-- The element of a shape. -/
def markup (p : Palette) : Shape → Markup
  | area x y width height paint radius =>
    .element .rect (rectangle x y width height radius ++ [areaStyle p paint]) []
  | box x y width height paint radius =>
    .element .rect (rectangle x y width height radius ++ [boxStyle p paint]) []
  | line x₁ y₁ x₂ y₂ dotted =>
    .element .line
      ([measure "x1" x₁, measure "y1" y₁, measure "x2" x₂, measure "y2" y₂, lineStyle p] ++
        (dashes? dotted).toList) []
  | polygon points paint =>
    .element .polygon [⟨"points", pointList points⟩, polygonStyle p paint] []
  | text x y content centred =>
    .element .text ([measure "x" x, measure "y" y] ++ (textStyle? p centred).toList)
      [.text content]
  | group x y shapes => shifted x y (markupAll p shapes)

/-- The elements of several shapes. -/
def markupAll (p : Palette) : List Shape → List Markup
  | [] => []
  | s :: ss => s.markup p :: markupAll p ss

end

@[simp] theorem markupAll_eq_map (p : Palette) (ss : List Shape) :
    markupAll p ss = ss.map (markup p) := by
  induction ss with
  | nil => rfl
  | cons s ss ih => simp [markupAll, ih]

end Shape

/-- One end of a gradient. -/
def gradientStop (offset colour : String) : Markup :=
  .element .stop
    [verbatim "offset" offset,
      verbatim "style" ("stop-color:" ++ escape colour ++ ";stop-opacity:1")] []

/-- The definition of the gradient of participant boxes, from top to bottom. -/
def Palette.gradient (p : Palette) (name : String) : Markup :=
  .element .linearGradient
    [verbatim "id" name, verbatim "x1" "0%", verbatim "y1" "0%", verbatim "x2" "0%",
      verbatim "y2" "100%"]
    [gradientStop "0%" p.gradientTop, gradientStop "100%" p.gradientBottom]

end SequenceDiagram
