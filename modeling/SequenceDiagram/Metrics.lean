/-!
# Metrics

The fixed measures of a drawing, in user units. Lengths that are only added up are natural
numbers.

## Main definitions

* `Metrics.slotWidth`, `Metrics.boxWidth`: the slots of the participants
* `Metrics.lineHeight`: a line of text
* `Metrics.textHeight`: a box that holds some lines of text
* `Metrics.slotLeft`: where the slot of a position begins
-/

namespace SequenceDiagram.Metrics

/-- The width of a participant box. -/
abbrev boxWidth : Nat := 125

/-- The distance between the lifelines of neighbouring participants. -/
abbrev slotWidth : Nat := 150

/-- The room between neighbouring participant boxes. -/
abbrev slotGap : Nat := slotWidth - boxWidth

/-- The room between the participant boxes and the edges of the drawing. -/
abbrev margin : Nat := 5

/-- The height of a line of text. -/
abbrev lineHeight : Nat := 20

/-- The room below the text in a box, and above an arrow. -/
abbrev boxPadding : Nat := 10

/-- The room below a participant box. -/
abbrev headerGap : Nat := 30

/-- The room below the text of a state note. -/
abbrev notePadding : Nat := 15

/-- The height of a message that returns to its sender, beyond that of another message. -/
abbrev loopHeight : Nat := 20

/-- The width of the loop of such a message. -/
abbrev loopWidth : Nat := 30

/-- The height of a separator. -/
abbrev separatorHeight : Nat := 30

/-- The height of a framed block without elements. -/
abbrev frameHeight : Nat := 60

/-- From the top of a frame to the first element in it. -/
abbrev frameHeader : Nat := 50

/-- The room below a frame. -/
abbrev frameGap : Nat := 10

/-- How far a frame is inset on each side for every level of nesting. -/
abbrev frameInset : Nat := 10

/-- The width of the notch of a frame, in which its keyword stands. -/
abbrev notchWidth : Nat := 70

/-- The height of the notch. -/
abbrev notchHeight : Nat := 30

/-- How far the lower right corner of the notch is cut off. -/
abbrev notchBevel : Nat := 10

/-- Where the middle of the keyword is in the notch. -/
abbrev keywordX : Nat := 30

/-- Where text beside the left edge of a frame or a separator begins. -/
abbrev commentX : Nat := 90

/-- How far a text that belongs to a line or an edge is below it. -/
abbrev labelDrop : Nat := 20

/-- The radius of the corners of boxes. -/
abbrev boxRadius : Nat := 5

/-- The length of an arrowhead. -/
abbrev headLength : Int := 15

/-- Half the width of an arrowhead. -/
abbrev headHalfWidth : Int := 5

/-- The height of a box that holds some lines of text. -/
def textHeight (lines : List String) : Nat := lines.length * lineHeight + boxPadding

/-- Where the slot of a position begins. -/
def slotLeft (position : Int) : Int := position * slotWidth + margin

theorem textHeight_eq (lines : List String) : textHeight lines = 20 * lines.length + 10 := by
  simp [textHeight, Nat.mul_comm]

theorem slotLeft_eq (position : Int) : slotLeft position = 150 * position + 5 := by
  simp [slotLeft, Int.mul_comm]

end SequenceDiagram.Metrics
