import SequenceDiagram.Diagram.Basic
import SequenceDiagram.Drawing.Parts
import SequenceDiagram.Layout

/-!
# Pictures of diagrams

A diagram is drawn from its participants, each in the slot of its order, and its elements, each
where the layout puts it.

## Main definitions

* `Placed.shapes`: the shapes of an element, without those of the elements in it
* `Diagram.drawAt`: the shapes of the element at a path
* `Picture`, `Diagram.draw`: the whole diagram
-/

namespace SequenceDiagram

open Metrics Drawing
open Quantity (units)

/-- The keyword and the comment that the frame of a block shows. -/
def BlockKind.caption? : BlockKind → Option (String × String)
  | framed keyword label => some (keyword, label)
  | alternative condition => some ("alt", condition)
  | sequence | parallel => none

theorem BlockKind.isFramed_iff {k : BlockKind} :
    k.isFramed = true ↔ ∃ keyword comment, k.caption? = some (keyword, comment) := by
  cases k <;> simp [isFramed, caption?]

/-- The arrow of a message from the participants of a roster. -/
def Signal.shape (s : Signal) (r : Roster) (top : Quantity) : Shape :=
  let i := r.position s.source
  let j := r.position s.target
  arrow (.whole (slotLeft (min i j)) + .half boxWidth) (top + units boxPadding) (i - j).natAbs s.text
    { pointingRight := i ≤ j, dotted := s.dotted, loop := s.isLoop, double := s.double,
      openHead := s.openHead }

/-- The shapes of an element of a drawing of the given width, without those of the elements in
it. -/
def Placed.shapes (r : Roster) (width : Quantity) (e : Placed) : List Shape :=
  match e.element with
  | .signal s => [s.shape r e.top]
  | .note n =>
    [labelledBox (.whole (slotLeft (r.position n.participant))) e.top n.text .fill]
  | .separator condition => separator (units (frameInset * e.depth)) e.top width condition
  | .block k _ =>
    match k.caption? with
    | none => []
    | some (keyword, comment) =>
      let inset := frameInset * (e.depth + 1)
      [frame (units inset) e.top (width - units (inset * 2)).clamp (units (e.height - frameGap))
        keyword comment]

/-- The lifeline of a participant. -/
def Participant.shape (p : Participant) (height : Quantity) : Shape :=
  lifeline (.whole (slotLeft p.position)) (units margin) height p.text

/-- A drawing with its measures. -/
structure Picture where
  width : Nat
  height : Nat
  shapes : List Shape

namespace Diagram

/-- The shapes of the element at a path if it begins at `top`, and the diagram with the heights
remembered that were needed. -/
def drawAt (d : Diagram) (p : Path) (top width : Quantity) : List Shape × Diagram :=
  match d.element? p with
  | none => ([], d)
  | some e =>
    let d := (d.heightAt p).2
    ((e.layout d.heights p top).flatMap (Placed.shapes d.roster width), d)

/-- The picture of a diagram, and the diagram with its participants at the slots of their order
and the heights remembered that were needed. -/
def draw (d : Diagram) : Picture × Diagram :=
  let d := { d with roster := d.roster.seated }
  let (height, d) := d.heightAt []
  let header := d.roster.headerHeight
  let bottom := header + height
  let (body, d) := d.drawAt [] (units header) (units d.roster.width)
  ({ width := d.roster.width
     height := bottom + header + 2 * margin
     shapes := d.roster.map (Participant.shape · (units bottom)) ++ body }, d)

end Diagram

end SequenceDiagram
