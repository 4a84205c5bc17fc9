import SequenceDiagram.Proofs.Diagram.Recovery
import SequenceDiagram.Proofs.Diagram.Session
import SequenceDiagram.Proofs.Drawing.Extent
import SequenceDiagram.Proofs.Layout.Tiling

/-!
# Vertical slots

A picture consists of three bands: the participant boxes at the top, the body, and the copies of
the boxes at the bottom. In the body every element has a slot that begins where it is placed and is
as high as it is; nothing that is drawn for it, or for an element in it, leaves the slot.

## Main definitions

* `Participant.Stands`: where the boxes and the line of a participant are

## Main results

* `Diagram.hasText_of_mem_placed`: the messages of a text have texts
* `Placed.within_layout`, `Placed.within_tail_layout`: what is in an element is within its slot,
  and within its frame if it has one
* `Participant.stands`: participant boxes are outside the body
* `compile_within_slots`: the slots of a picture
-/

namespace SequenceDiagram

open Metrics
open Quantity (units)

/-! ## Messages have texts -/

/-- The text of a message is a label, which has one line at least, possibly with a number. -/
theorem Statement.Describes.hasText {st : Statement} {ev : Event} {e : Element}
    (hd : st.Describes ev) (he : ev.element? = some e) : e.HasText := by
  rintro x rfl
  cases ev with
  | signal x' =>
    obtain rfl : x' = x := by simpa [Event.element?] using he
    cases st with
    | signal source double dotted openHead target text =>
      obtain ⟨lines, rfl, rfl | ⟨n, rfl⟩⟩ := hd
      · exact Text.labelLines_ne_nil text
      · simp [Diagram.numberLines, Text.labelLines_ne_nil]
    | _ => exact absurd hd id
  | _ => simp [Event.element?] at he

/-- What holds throughout an element holds of everything that is placed in it. -/
theorem Element.Throughout.of_mem_layout {P : BlockKind → Element → Prop} {k : BlockKind}
    {e : Element} (h : e.Throughout P k) {p : Path} {top : Quantity} {b : Placed}
    (hb : b ∈ e.layout [] p top) : ∃ k', P k' b.element := by
  obtain ⟨k', hk'⟩ := Element.forall_mem_layout (P := fun b => ∃ k', b.element.Throughout P k')
    (by
      rintro inner children p top ⟨k', hk'⟩ c hc
      exact ⟨inner, hk'.inside c.element (BlockKind.of_mem_row hc).1⟩)
    ⟨k, h⟩ b hb
  exact ⟨k', hk'.here⟩

/-- The messages of a text have texts. -/
theorem Diagram.hasText_of_mem_placed {text : String} (hf : (read text).fault = none) :
    ∀ b ∈ (read text).diagram.placed, b.element.HasText := by
  intro b hb
  simp only [read, fault_readText, diagram_readText] at hf hb
  have ht := throughout_readLines (P := fun _ e => e.HasText) (fun _ _ _ _ h => by simp at h)
    (fun _ _ _ _ hd _ he => hd.hasText he) hf .sequence
  exact (ht.of_mem_layout hb).elim fun _ h => h

/-! ## Slots of elements -/

namespace Placed

variable {b : Placed} {y : Int} {r : Roster} {width : Quantity}

/-- Everything that is drawn for an element and what is in it is within its slot. -/
theorem within_layout (ht : b.top = .whole y) (hh : b.height = b.element.height)
    (hs : ∀ c ∈ b.layout, c.element.HasText) :
    ∀ s ∈ b.layout.flatMap (shapes r width), s.Within 0 y (y + b.height) := by
  intro s hs'
  obtain ⟨c, hc, hsc⟩ := List.mem_flatMap.1 hs'
  have hcs := hs c hc
  simp only [layout, ht] at hc
  obtain ⟨n, hn⟩ := Element.whole_of_mem_layout y c hc
  obtain ⟨hl, hb⟩ := Element.slot_of_mem_layout hc
  simp only [hn, bottom, Quantity.toQuarters_whole] at hl hb
  refine (within_shapes hn (Element.mem_layout hc).1 hcs r width s hsc).mono ?_ ?_ <;> omega

/-- Everything that is drawn for what is in a frame is within the frame and below its header. -/
theorem within_tail_layout {k : BlockKind} {children : List Element}
    (he : b.element = .block k children) (hk : k.isFramed = true) (ht : b.top = .whole y)
    (hh : b.height = b.element.height) (hs : ∀ c ∈ b.layout, c.element.HasText) :
    ∀ s ∈ b.layout.tail.flatMap (shapes r width), s.Within 0 (y + 50) (y + b.height - 10) := by
  obtain ⟨p, top, h, e⟩ := b
  simp only at he ht hh ⊢
  subst he ht hh
  -- In the frame are the elements of the block with what is in them, each in its own slot.
  have hl : layout ⟨p, .whole y, (Element.block k children).height, .block k children⟩ = _ :=
    Element.layout_block k children p (.whole y)
  rw [hl] at hs
  rw [hl, List.tail_cons]
  intro s hs'
  obtain ⟨d, hd, hsd⟩ := List.mem_flatMap.1 hs'
  obtain ⟨c, hc, hdc⟩ := List.mem_flatMap.1 hd
  have hmem : ∀ d ∈ c.layout, d ∈ (k.row p (.whole y) children).flatMap layout :=
    fun d hd => List.mem_flatMap.2 ⟨c, hc, hd⟩
  obtain ⟨n, hn⟩ := BlockKind.whole_of_mem_row hc
  obtain ⟨hct, hcb⟩ := (k.arranges_row p (.whole y) children).slot_of_isFramed hk hc
  simp only [hn, bottom, Quantity.toQuarters_whole] at hct hcb
  have hw := within_layout hn (BlockKind.of_mem_row hc).2
    (fun d hd => hs d (List.mem_cons_of_mem _ (hmem d hd))) s (List.mem_flatMap.2 ⟨d, hdc, hsd⟩)
  refine hw.mono ?_ ?_ <;> omega

end Placed

/-! ## Slots of participants -/

/-- A participant stands above and below a body: it has a box that begins 5 units from the top and
ends 25 units above the body, a copy of the box with the same distances below the body, and a line
from the lower edge of the one down to the upper edge of the other. -/
def Participant.Stands (p : Participant) (header body : Nat) : Prop :=
  ∃ x middle width radius boxHeight texts texts', ∃ above below : Shape,
    above = .group 0 0 (.box 0 0 width (units boxHeight) .gradient radius :: texts) ∧
    below = .group 0 (units (header + body))
      (.box 0 0 width (units boxHeight) .gradient radius :: texts') ∧
    p.shape (units (header + body)) =
      .group x (units 5)
        [.line middle (units boxHeight) middle (units (header + body)) false, above, below] ∧
    above.Within 5 5 (header - 25) ∧
    below.Within 5 (header + body + 5) (2 * header + body - 25) ∧
    boxHeight < header + body

namespace Participant

/-- A participant stands above and below the body if the header has room for its box. -/
theorem stands {p : Participant} {header : Nat} (hp : p.headerHeight ≤ header) (body : Nat) :
    p.Stands header body := by
  simp only [headerHeight, headerGap] at hp
  -- The coordinates of both boxes count from 5 units below the top.
  have hbox : ∀ y : Int, (Drawing.labelledBox 0 (.whole y) p.text .gradient).Within 5 (5 + y)
      (5 + y + textHeight p.text) := fun y => Drawing.within_labelledBox y .gradient
  refine ⟨_, _, _, _, _, _, _, _, _, rfl, rfl, rfl, ?_, ?_, by omega⟩
  · refine (hbox 0).mono ?_ ?_ <;> omega
  · refine (hbox (header + body : Nat)).mono ?_ ?_ <;> omega

/-- Everything of a participant is within the picture. -/
theorem Stands.within {p : Participant} {header body : Nat} (h : p.Stands header body) :
    (p.shape (units (header + body))).Within 0 0 (2 * header + body + 10) := by
  obtain ⟨_, _, _, _, boxHeight, _, _, above, below, -, -, hs, ha, hb, hlt⟩ := h
  rw [hs]
  refine Shape.within_group.2 (List.forall_mem_cons.2 ⟨?_, List.forall_mem_cons.2 ⟨?_, ?_⟩⟩)
  · refine Shape.within_line.2 ?_
    omega
  · exact ha.mono (by omega) (by omega)
  · exact List.forall_mem_singleton.2 (hb.mono (by omega) (by omega))

end Participant

/-! ## Slots of a picture -/

theorem Roster.headerHeight_le_of_mem {r : Roster} {p : Participant} (hp : p ∈ r) :
    p.headerHeight ≤ r.headerHeight := Element.le_foldr_max (List.mem_map_of_mem hp)

namespace Diagram

variable {d : Diagram}

/-- Every participant of a diagram stands above and below the body. -/
theorem stands_of_mem_seated {p : Participant} (hp : p ∈ d.roster.seated) (body : Nat) :
    p.Stands d.roster.headerHeight body := by
  refine Participant.stands ?_ body
  rw [← Roster.headerHeight_seated]
  exact Roster.headerHeight_le_of_mem hp

/-- Everything in the body is drawn below the one row of participant boxes and above the other. -/
theorem within_body (hs : ∀ b ∈ d.placed, b.element.HasText) (r : Roster) (width : Quantity) :
    ∀ s ∈ d.placed.flatMap (Placed.shapes r width),
      s.Within 0 d.roster.headerHeight (d.roster.headerHeight + d.root.height) :=
  Placed.within_layout (b := ⟨[], units d.roster.headerHeight, d.root.height, d.root⟩) rfl rfl hs

end Diagram

end SequenceDiagram
