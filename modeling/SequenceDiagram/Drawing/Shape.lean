import SequenceDiagram.Quantity.Basic

/-!
# Shapes

A drawing is made of a few shapes. Their measures are fixed by the diagram alone; the colours are
named by what they are used for and come from a palette later.

## Main definitions

* `Paint`: what a shape is filled with
* `Shape`: the shapes
-/

namespace SequenceDiagram

/-- What a shape is filled with. -/
inductive Paint where
  /-- The fill of the palette. -/
  | fill
  /-- The colour of closed arrowheads of the palette. -/
  | arrowFill
  /-- The gradient of participant boxes. -/
  | gradient
  /-- Nothing. -/
  | none
  /-- A colour of its own. -/
  | colour (name : String)
deriving DecidableEq

/-- The shapes of a drawing. -/
inductive Shape where
  /-- A rectangle without a border. -/
  | area (x y width height : Quantity) (paint : Paint) (radius : Quantity)
  /-- A rectangle with a border. -/
  | box (x y width height : Quantity) (paint : Paint) (radius : Quantity)
  /-- A line between two points. -/
  | line (x₁ y₁ x₂ y₂ : Quantity) (dotted : Bool)
  /-- A polygon with a border. -/
  | polygon (points : List (Quantity × Quantity)) (paint : Paint)
  /-- A line of text that begins at a point, or has its middle there. -/
  | text (x y : Quantity) (content : String) (centred : Bool)
  /-- Shapes whose coordinates count from a point. -/
  | group (x y : Quantity) (shapes : List Shape)

end SequenceDiagram
