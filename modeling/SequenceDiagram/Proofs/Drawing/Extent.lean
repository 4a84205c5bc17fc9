import SequenceDiagram.Drawing.Picture

/-!
# How far shapes reach down

A shape reaches from its highest point to its lowest one. What is drawn for an element stays
within the room that its height reserves for it, whatever its texts are.

## Main definitions

* `Shape.ordinates`: the heights of all edges, ends, corners and texts of a shape
* `Shape.Within`: a shape is between two heights
* `Element.HasText`: a message has a text

## Main results

* `Shape.Within.mono`: a shape between two heights is between heights farther apart
* `Drawing.within_arrow`, `Drawing.within_labelledBox`, `Drawing.within_frame`,
  `Drawing.within_separator`: how far the parts of a drawing reach
* `Placed.within_shapes`: the shapes of an element are within its room
-/

namespace SequenceDiagram

open Metrics
open Quantity (units)

/-- A quantity is a whole number between two others. -/
def Quantity.IsBetween (low high : Int) (q : Quantity) : Prop :=
  ∃ n, q = .whole n ∧ low ≤ n ∧ n ≤ high

@[simp] theorem Quantity.isBetween_whole {low high n : Int} :
    (Quantity.whole n).IsBetween low high ↔ low ≤ n ∧ n ≤ high := by
  simp [IsBetween]

namespace Shape

mutual

/-- The heights of the horizontal edges, ends, corners and texts of a shape whose coordinates count
from `origin`. -/
def ordinates (origin : Quantity) : Shape → List Quantity
  | area _ y _ height _ _ => [origin + y, origin + y + height]
  | box _ y _ height _ _ => [origin + y, origin + y + height]
  | line _ y₁ _ y₂ _ => [origin + y₁, origin + y₂]
  | polygon points _ => points.map (origin + ·.2)
  | text _ y _ _ => [origin + y]
  | group _ y shapes => ordinatesAll (origin + y) shapes

/-- The heights of several shapes. -/
def ordinatesAll (origin : Quantity) : List Shape → List Quantity
  | [] => []
  | s :: ss => s.ordinates origin ++ ordinatesAll origin ss

end

@[simp] theorem ordinatesAll_eq_flatMap (origin : Quantity) (ss : List Shape) :
    ordinatesAll origin ss = ss.flatMap (ordinates origin) := by
  induction ss with
  | nil => rfl
  | cons s ss ih => simp [ordinatesAll, ih]

/-- A shape whose coordinates count from `origin` is between two heights. -/
def Within (origin low high : Int) (s : Shape) : Prop :=
  ∀ q ∈ s.ordinates (.whole origin), q.IsBetween low high

section

variable {origin low high y h y₁ y₂ : Int} {x w r x₁ x₂ : Quantity} {paint : Paint}

attribute [local simp] ordinates

@[simp] theorem within_area : (area x (.whole y) w (.whole h) paint r).Within origin low high ↔
    (low ≤ origin + y ∧ origin + y ≤ high) ∧ low ≤ origin + y + h ∧ origin + y + h ≤ high := by
  simp [Within]

@[simp] theorem within_box : (box x (.whole y) w (.whole h) paint r).Within origin low high ↔
    (low ≤ origin + y ∧ origin + y ≤ high) ∧ low ≤ origin + y + h ∧ origin + y + h ≤ high := by
  simp [Within]

@[simp] theorem within_line {dotted : Bool} :
    (line x₁ (.whole y₁) x₂ (.whole y₂) dotted).Within origin low high ↔
      (low ≤ origin + y₁ ∧ origin + y₁ ≤ high) ∧ low ≤ origin + y₂ ∧ origin + y₂ ≤ high := by
  simp [Within]

@[simp] theorem within_text {content : String} {centred : Bool} :
    (text x (.whole y) content centred).Within origin low high ↔
      low ≤ origin + y ∧ origin + y ≤ high := by
  simp [Within]

@[simp] theorem within_group {ss : List Shape} :
    (group x (.whole y) ss).Within origin low high ↔ ∀ s ∈ ss, s.Within (origin + y) low high := by
  simp only [Within, ordinates, ordinatesAll_eq_flatMap, Quantity.whole_add_whole,
    List.forall_mem_flatMap]

theorem Within.mono {low' high' : Int} {s : Shape} (h : s.Within origin low high)
    (hl : low' ≤ low) (hh : high ≤ high') : s.Within origin low' high' := by
  intro q hq
  obtain ⟨n, rfl, hn, hn'⟩ := h q hq
  exact ⟨n, rfl, Int.le_trans hl hn, Int.le_trans hn' hh⟩

end

end Shape

namespace Drawing

open Shape

variable {origin : Int} {x : Quantity} {lines : List String}

/-- Lines of text stand below each other at distances of 20 units. -/
theorem within_centredLines {y : Nat} {low high : Int} (hl : low ≤ origin + y)
    (hh : origin + y + 20 * ((lines.length : Int) - 1) ≤ high) :
    ∀ s ∈ centredLines x y lines, s.Within origin low high := by
  intro s hs
  obtain ⟨i, hi, rfl⟩ := List.mem_mapIdx.1 hs
  simp only [units, within_text, lineHeight]
  omega

/-- A box is as high as its text demands. -/
theorem within_labelledBox (y : Int) (paint : Paint) :
    (labelledBox x (.whole y) lines paint).Within origin (origin + y)
      (origin + y + textHeight lines) := by
  have hbox : (box 0 0 (units boxWidth) (units (textHeight lines)) paint (units boxRadius)).Within
      (origin + y) (origin + y) (origin + y + textHeight lines) := by
    refine within_box.2 ?_
    push_cast
    omega
  have htexts : ∀ s ∈ centredLines (.half boxWidth) lineHeight lines,
      s.Within (origin + y) (origin + y) (origin + y + textHeight lines) := by
    refine within_centredLines ?_ ?_
    · simp only [lineHeight]
      omega
    · simp only [lineHeight, textHeight_eq]
      omega
  exact within_group.2 (List.forall_mem_cons.2 ⟨hbox, htexts⟩)

/-- A frame of at least the height of its notch is as high as it is said to be. -/
theorem within_frame {y : Int} {height : Nat} (hh : notchHeight ≤ height) (width : Quantity)
    (keyword comment : String) :
    (frame x (.whole y) width (units height) keyword comment).Within origin (origin + y)
      (origin + y + height) := by
  simp only [notchHeight] at hh
  refine within_group.2 (List.forall_mem_append.2 ⟨?_, ?_⟩)
  · simp only [List.forall_mem_cons]
    refine ⟨within_area.2 ?_, within_box.2 ?_, within_line.2 ?_, within_line.2 ?_,
      within_line.2 ?_, within_text.2 ?_, by simp⟩ <;>
      simp only [notchHeight, notchBevel, labelDrop] <;> omega
  · split
    · simp
    · refine List.forall_mem_singleton.2 (within_text.2 ?_)
      simp only [labelDrop]
      omega

/-- A separator has its condition 20 units below it. -/
theorem within_separator (left width : Quantity) (y : Int) (condition : String) :
    ∀ s ∈ separator left (.whole y) width condition, s.Within origin (origin + y)
      (origin + y + 20) := by
  simp only [separator, List.forall_mem_cons]
  refine ⟨within_line.2 (by omega), within_text.2 ?_, by simp⟩
  simp only [labelDrop]
  omega

/-- An arrowhead reaches 5 units up and down from its tip. -/
theorem within_arrowhead (y : Int) (pointingRight openHead : Bool) :
    (arrowhead x (.whole y) pointingRight openHead).Within origin (origin + y - 5)
      (origin + y + 5) := by
  refine within_group.2 (List.forall_mem_singleton.2 ?_)
  intro q hq
  simp only [ordinates, List.map_cons, List.map_nil, headHalfWidth, List.mem_cons,
    List.not_mem_nil, or_false] at hq
  rcases hq with rfl | rfl | rfl
  · exact ⟨origin + y + -5, rfl, by omega, by omega⟩
  · exact ⟨origin + y + 0, rfl, by omega, by omega⟩
  · exact ⟨origin + y + 5, rfl, by omega, by omega⟩

/-- The line of an arrow and its heads reach 5 units up and down, and a loop 20 units farther. -/
theorem within_shaft (length y : Int) (style : ArrowStyle) :
    ∀ s ∈ shaft length y style, s.Within origin (origin + y - 5)
      (origin + y + 5 + if style.loop then 20 else 0) := by
  have hhead : ∀ (tip : Quantity) (pointingRight openHead : Bool) (drop : Int), 0 ≤ drop →
      (arrowhead tip (.whole (y + drop)) pointingRight openHead).Within origin (origin + y - 5)
        (origin + y + 5 + drop) := by
    intro tip pointingRight openHead drop hd
    exact (within_arrowhead _ _ _).mono (by omega) (by omega)
  unfold shaft
  split
  · -- The loop ends 20 units below the line, with a head of its own.
    simp only [List.forall_mem_cons, loopHeight]
    refine ⟨within_line.2 (by omega), within_line.2 (by omega), within_line.2 (by omega),
      hhead _ _ _ _ (by omega), by simp⟩
  · have h0 := fun tip pointingRight openHead => hhead tip pointingRight openHead 0 (Int.le_refl 0)
    simp only [Int.add_zero] at h0 ⊢
    refine List.forall_mem_cons.2 ⟨within_line.2 (by omega), ?_⟩
    split
    · exact List.forall_mem_cons.2 ⟨h0 _ _ _, List.forall_mem_singleton.2 (h0 _ _ _)⟩
    · exact List.forall_mem_singleton.2 (h0 _ _ _)

/-- An arrow with some text reaches from its first line down to its heads. -/
theorem within_arrow (hl : lines ≠ []) (y span : Int) (style : ArrowStyle) :
    (arrow x (.whole y) span lines style).Within origin (origin + y)
      (origin + y + 20 * lines.length + if style.loop then 20 else 0) := by
  have hpos : 0 < lines.length := List.length_pos_iff.2 hl
  refine within_group.2 (List.forall_mem_append.2 ⟨?_, ?_⟩)
  · intro s hs
    refine (within_shaft _ _ _ s hs).mono ?_ ?_ <;> simp only [lineHeight] <;> omega
  · refine within_centredLines ?_ ?_
    · omega
    · split <;> omega

end Drawing

/-- An element that is a message has a text. -/
def Element.HasText (e : Element) : Prop := ∀ s, e = .signal s → s.text ≠ []

/-- **The shapes of an element are within its room**, unless it is a message without a text. -/
theorem Placed.within_shapes {b : Placed} {y : Int} (ht : b.top = .whole y)
    (hh : b.height = b.element.height) (hs : b.element.HasText) (r : Roster) (width : Quantity) :
    ∀ s ∈ b.shapes r width, s.Within 0 y (y + b.height) := by
  obtain ⟨p, top, h, e⟩ := b
  simp only at ht hh hs ⊢
  subst ht hh
  cases e with
  | signal s =>
    refine List.forall_mem_singleton.2 (.mono (Drawing.within_arrow (hs s rfl) _ _ _) ?_ ?_)
    · omega
    · simp only [Element.height, Signal.height, textHeight_eq, boxPadding, loopHeight]
      split <;> omega
  | note n =>
    refine List.forall_mem_singleton.2 (.mono (Drawing.within_labelledBox y .fill) ?_ ?_)
    · omega
    · simp only [Element.height, Note.height, textHeight_eq, lineHeight, notePadding]
      omega
  | separator c =>
    intro s hs
    refine (Drawing.within_separator _ _ y c s hs).mono ?_ ?_
    · omega
    · simp only [Element.height, separatorHeight]
      omega
  | block k children =>
    simp only [shapes]
    cases hk : k.caption? with
    | none => simp
    | some caption =>
      -- Only a block with a frame is drawn itself, and its frame is at least as high as that of an
      -- empty block.
      obtain ⟨keyword, comment⟩ := caption
      have hle : frameHeight ≤ (Element.block k children).height := by
        rw [Element.height_block]
        exact BlockKind.frameHeight_le (BlockKind.isFramed_iff.2 ⟨keyword, comment, hk⟩) _
      have hnotch : notchHeight ≤ (Element.block k children).height - frameGap := by
        simp only [frameHeight, notchHeight, frameGap] at hle ⊢
        omega
      refine List.forall_mem_singleton.2
        (.mono (Drawing.within_frame hnotch _ keyword comment) ?_ ?_)
      · omega
      · simp only [frameGap]
        omega

end SequenceDiagram
