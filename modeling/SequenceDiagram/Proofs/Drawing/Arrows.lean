import SequenceDiagram.Proofs.Diagram.Mentions
import SequenceDiagram.Proofs.Diagram.Recovery
import SequenceDiagram.Proofs.Drawing.Marks
import SequenceDiagram.Proofs.Layout.Paths

/-!
# Arrows and lifelines

The participants of a picture stand side by side, each with its lifeline in the middle of its slot,
and every message goes from the one of its sender to the one of its recipient, with its heads
on the lifelines. Coordinates are absolute, exact and counted in quarters.

## Main definitions

* `lifelineAt`, `boxAt`: the lifeline of a slot and the left edge of the boxes in it
* `Signal.paint`, `Signal.heads`: the heads of a message between two slots
* `Participant.IsDrawn`, `Note.IsDrawn`, `Signal.IsDrawn`: what is drawn in one slot or two

## Main results

* `Participant.isDrawn_shape`, `Placed.isDrawn_note`: participants and notes in their slots
* `Placed.isDrawn_signal`: messages between two slots and within one
* `compile_arrows`: the arrows of a picture
-/

namespace SequenceDiagram

open Metrics
open Quantity (units)

/-- The lifeline of the participant in a slot: the vertical 67.5 units to the right of the beginning
of the drawing for the first slot, and 150 units farther for every slot after it. -/
def lifelineAt (i : Nat) : Int := 600 * i + 270

/-- The left edge of the boxes in a slot: 5 units to the right of the beginning of the drawing for
the first slot, and 150 units farther for every slot after it. -/
def boxAt (i : Nat) : Int := 600 * i + 20

theorem lifelineAt_eq (i : Nat) : lifelineAt i = boxAt i + 250 := by
  simp only [lifelineAt, boxAt]
  omega

/-- The colour of the heads of a message between two slots. -/
def Signal.paint (s : Signal) : Paint := if s.openHead then .fill else .arrowFill

/-- The heads of a message from a slot to another one: one at the lifeline of its recipient, with
the base on the side of its sender, and if it is double one the other way round. -/
def Signal.heads (s : Signal) (i j : Nat) (y : Int) : List Mark :=
  .head (lifelineAt j) y (lifelineAt i) s.paint ::
    if s.double then [.head (lifelineAt i) y (lifelineAt j) s.paint] else []

/-! ## What is drawn in a slot -/

/-- The marks of a participant in a slot: the lifeline between two boxes that hold its label. -/
def Participant.IsDrawn (p : Participant) (i : Nat) (ms : List Mark) : Prop :=
  ∃ top bottom height : Int, ms =
    .line (lifelineAt i) (top + height) (lifelineAt i) bottom false ::
      (.box (boxAt i) top 500 height .gradient 20 :: Mark.lines (lifelineAt i) (top + 80) p.text ++
        .box (boxAt i) bottom 500 height .gradient 20 ::
          Mark.lines (lifelineAt i) (bottom + 80) p.text)

/-- The marks of a note in a slot: a box that holds its text. -/
def Note.IsDrawn (n : Note) (i : Nat) (ms : List Mark) : Prop :=
  ∃ top height : Int, ms =
    .box (boxAt i) top 500 height .fill 20 :: Mark.lines (lifelineAt i) (top + 80) n.text

namespace Participant

variable {p : Participant} {i : Nat}

theorem isDrawn_shape (hp : p.position = i) (height : Nat) :
    p.IsDrawn i ((p.shape (units height)).marks 0 0) := by
  have hleft : 0 + (Quantity.whole (slotLeft p.position)).toQuarters = boxAt i := by
    rw [hp, slotLeft_eq, Quantity.toQuarters_whole, boxAt]
    omega
  refine ⟨20, 20 + 4 * height, 4 * textHeight p.text, ?_⟩
  rw [shape, Drawing.marks_lifeline, hleft, ← lifelineAt_eq]
  simp only [Quantity.toQuarters_units, margin, Int.zero_add]
  rfl

/-- A participant takes the width of its boxes. -/
theorem IsDrawn.between {ms : List Mark} (h : p.IsDrawn i ms) :
    ∀ m ∈ ms, m.Between (boxAt i) (boxAt i + 500) := by
  obtain ⟨top, bottom, height, rfl⟩ := h
  have hx := lifelineAt_eq i
  have hlines (y : Int) : ∀ m ∈ Mark.lines (lifelineAt i) y p.text,
      m.Between (boxAt i) (boxAt i + 500) := Mark.between_lines (by omega) (by omega)
  refine List.forall_mem_cons.2 ⟨Mark.between_line.2 (by omega), List.forall_mem_append.2
    ⟨List.forall_mem_cons.2 ⟨Mark.between_box.2 (by omega), hlines _⟩,
      List.forall_mem_cons.2 ⟨Mark.between_box.2 (by omega), hlines _⟩⟩⟩

end Participant

/-- A note is drawn in the slot of its participant. -/
theorem Placed.isDrawn_note {b : Placed} {n : Note} (hb : b.element = .note n) {r : Roster}
    {i : Nat} (hi : r.position n.participant = i) (width : Quantity) :
    n.IsDrawn i ((b.shapes r width).flatMap (Shape.marks 0 0)) := by
  have hleft : 0 + (Quantity.whole (slotLeft (r.position n.participant))).toQuarters = boxAt i := by
    rw [hi, slotLeft_eq, Quantity.toQuarters_whole, boxAt]
    omega
  refine ⟨b.top.toQuarters, 4 * textHeight n.text, ?_⟩
  simp only [shapes, hb, List.flatMap_singleton]
  rw [Drawing.marks_labelledBox, hleft, ← lifelineAt_eq, Int.zero_add]

/-- A note takes the width of its box. -/
theorem Note.IsDrawn.between {n : Note} {i : Nat} {ms : List Mark} (h : n.IsDrawn i ms) :
    ∀ m ∈ ms, m.Between (boxAt i) (boxAt i + 500) := by
  obtain ⟨top, height, rfl⟩ := h
  have hx := lifelineAt_eq i
  exact List.forall_mem_cons.2
    ⟨Mark.between_box.2 (by omega), Mark.between_lines (by omega) (by omega)⟩

/-! ## Messages -/

/-- The marks of a message from the slot `i` to the slot `j`. Between two participants it is a line
of some length from lifeline to lifeline, with the heads at its ends. To its sender it goes 30 units
to the right, 20 units down and back to the lifeline, where it has one head, which is closed. -/
def Signal.IsDrawn (s : Signal) (i j : Nat) (ms : List Mark) : Prop :=
  ∃ top y : Int,
    if s.source = s.target then
      ms = [.line (lifelineAt i) y (lifelineAt i + 120) y s.dotted,
        .line (lifelineAt i + 120) y (lifelineAt i + 120) (y + 80) s.dotted,
        .line (lifelineAt i + 120) (y + 80) (lifelineAt i) (y + 80) s.dotted,
        .head (lifelineAt i) (y + 80) (lifelineAt i + 120) .arrowFill] ++
          Mark.lines (lifelineAt i) top s.text
    else
      lifelineAt (min i j) < lifelineAt (max i j) ∧
        ∃ heads, heads.Perm (s.heads i j y) ∧
          ms = .line (lifelineAt (min i j)) y (lifelineAt (max i j)) y s.dotted ::
            (heads ++ Mark.lines (300 * (i + j) + 270) top s.text)

/-- A message reaches from the one lifeline to the other, or 30 units to the right of it. -/
theorem Signal.IsDrawn.between {s : Signal} {i j : Nat} {ms : List Mark} (h : s.IsDrawn i j ms) :
    ∀ m ∈ ms, m.Between (lifelineAt (min i j)) (lifelineAt (max i j) + 120) := by
  obtain ⟨top, y, h⟩ := h
  simp only [lifelineAt] at h ⊢
  split at h
  · subst h
    simp only [List.forall_mem_append, List.forall_mem_cons]
    refine ⟨⟨Mark.between_line.2 ?_, Mark.between_line.2 ?_, Mark.between_line.2 ?_,
      Mark.between_head ?_ ?_ ?_, by simp⟩, Mark.between_lines ?_ ?_⟩ <;> omega
  · obtain ⟨hlt, heads, hp, rfl⟩ := h
    -- Both ends of the line are far enough from each other for a head.
    have hhead (a b : Nat) (ha : a = i ∧ b = j ∨ a = j ∧ b = i) :
        (Mark.head (600 * a + 270) y (600 * b + 270) s.paint).Between
          (600 * (min i j : Nat) + 270) (600 * (max i j : Nat) + 270 + 120) :=
      Mark.between_head (by omega) (by omega) (by omega)
    have hheads : ∀ m ∈ s.heads i j y, m.Between
        (600 * (min i j : Nat) + 270) (600 * (max i j : Nat) + 270 + 120) := by
      refine List.forall_mem_cons.2 ⟨hhead j i (.inr ⟨rfl, rfl⟩), ?_⟩
      split
      · exact List.forall_mem_singleton.2 (hhead i j (.inl ⟨rfl, rfl⟩))
      · simp
    refine List.forall_mem_cons.2 ⟨Mark.between_line.2 (by omega), List.forall_mem_append.2
      ⟨fun m hm => hheads m (hp.mem_iff.1 hm), Mark.between_lines (by omega) (by omega)⟩⟩

/-- How the arrow of a message looks. -/
def Signal.style (s : Signal) (pointingRight : Bool) : Drawing.ArrowStyle :=
  { pointingRight
    dotted := s.dotted
    loop := s.isLoop
    double := s.double
    openHead := s.openHead }

/-- The arrow of a message between two slots has the heads of the message. -/
theorem Signal.exists_heads (s : Signal) {i j : Nat} (h : i ≠ j) (y : Int) :
    ∃ heads, heads.Perm (s.heads i j y) ∧
      (s.style (i ≤ j)).straight (lifelineAt (min i j)) (lifelineAt (max i j)) y =
        .line (lifelineAt (min i j)) y (lifelineAt (max i j)) y s.dotted :: heads := by
  refine ⟨_, ?_, rfl⟩
  change (if s.double then
      [.head (lifelineAt (max i j)) y (lifelineAt (min i j)) s.paint,
        .head (lifelineAt (min i j)) y (lifelineAt (max i j)) s.paint]
    else [if decide (i ≤ j) then .head (lifelineAt (max i j)) y (lifelineAt (min i j)) s.paint
      else .head (lifelineAt (min i j)) y (lifelineAt (max i j)) s.paint]).Perm (s.heads i j y)
  rw [heads]
  -- The recipient is on the right or on the left.
  rcases Nat.lt_or_gt_of_ne h with hlt | hlt
  · rw [Nat.min_eq_left hlt.le, Nat.max_eq_right hlt.le]
    by_cases hd : s.double <;> simp [hd, hlt.le]
  · rw [Nat.min_eq_right hlt.le, Nat.max_eq_left hlt.le]
    by_cases hd : s.double
    · simpa only [hd, if_true] using List.Perm.swap ..
    · simp [hd, Nat.not_le.2 hlt]

namespace Placed

variable {b : Placed} {r : Roster} {i j : Nat} {s : Signal}

/-- The arrow of a message goes from the lifeline on the left over the slots between the two. -/
theorem marks_arrow (hb : b.element = .signal s) (hi : r.position s.source = i)
    (hj : r.position s.target = j) (width : Quantity) :
    let top := b.top.toQuarters + 40
    (b.shapes r width).flatMap (Shape.marks 0 0) =
      (Drawing.shaft (150 * ((i : Int) - j).natAbs) (7 + ((s.text.length : Int) - 1) * 20)
          (s.style (i ≤ j))).flatMap (Shape.marks (lifelineAt (min i j)) top) ++
        Mark.lines (300 * (i + j) + 270) top s.text := by
  have hleft : 0 + (Quantity.whole (slotLeft (min (i : Int) j)) + .half boxWidth).toQuarters =
      lifelineAt (min i j) := by
    rw [slotLeft_eq, Quantity.toQuarters_add, Quantity.toQuarters_whole, Quantity.toQuarters_half,
      lifelineAt]
    simp only [boxWidth]
    omega
  have htop : 0 + (b.top + units boxPadding).toQuarters = b.top.toQuarters + 40 := by
    rw [Quantity.toQuarters_add, Quantity.toQuarters_units]
    simp only [boxPadding]
    omega
  have hmiddle : lifelineAt (min i j) + 300 * ((i : Int) - j).natAbs = 300 * (i + j) + 270 := by
    simp only [lifelineAt]
    omega
  simp only [shapes, hb, Signal.shape, hi, hj, List.flatMap_singleton]
  rw [Drawing.marks_arrow, hleft, htop, hmiddle]
  simp only [Signal.style, Int.ofNat_le]

/-- **A message is drawn from the slot of its sender to that of its recipient**, which is another
one if it is not the same participant. -/
theorem isDrawn_signal (hb : b.element = .signal s) (hi : r.position s.source = i)
    (hj : r.position s.target = j) (hij : i = j → s.source = s.target) (width : Quantity) :
    s.IsDrawn i j ((b.shapes r width).flatMap (Shape.marks 0 0)) := by
  have hy (top : Int) : top + 4 * (7 + ((s.text.length : Int) - 1) * 20) =
      top + 28 + 80 * ((s.text.length : Int) - 1) := by omega
  refine ⟨b.top.toQuarters + 40, b.top.toQuarters + 40 + 28 + 80 * ((s.text.length : Int) - 1), ?_⟩
  rw [marks_arrow hb hi hj]
  split
  · rename_i hs
    have hloop : (s.style (i ≤ j)).loop = true := decide_eq_true hs
    obtain rfl : i = j := Int.ofNat.inj (hi.symm.trans (hs ▸ hj))
    have hmiddle : 300 * ((i : Int) + i) + 270 = lifelineAt i := by
      simp only [lifelineAt]
      omega
    rw [Drawing.marks_shaft_returning _ _ _ _ hloop, hy, hmiddle, Nat.min_self]
    rfl
  · rename_i hs
    have hne : i ≠ j := fun h => hs (hij h)
    have hloop : (s.style (i ≤ j)).loop = false := decide_eq_false hs
    have hright : lifelineAt (min i j) + 4 * (150 * ((i : Int) - j).natAbs) =
        lifelineAt (max i j) := by
      simp only [lifelineAt]
      omega
    obtain ⟨heads, hp, hstraight⟩ := s.exists_heads hne
      (b.top.toQuarters + 40 + 28 + 80 * ((s.text.length : Int) - 1))
    rw [Drawing.marks_shaft_straight _ _ (by omega) _ hloop, hright, hy, hstraight,
      List.cons_append]
    exact ⟨by omega, heads, hp, rfl⟩

end Placed

/-! ## Pictures -/

section Edges

variable {r : Roster} {i j : Nat} {ms : List Mark}

/-- The boxes in the slots of a drawing are 5 units or more away from its edges. -/
theorem boxAt_le_width (h : i < r.length) :
    20 ≤ boxAt i ∧ boxAt i + 500 ≤ 4 * r.width - 20 := by
  simp only [boxAt, Roster.width, slotWidth, slotGap, boxWidth, margin]
  omega

theorem Participant.IsDrawn.inside {p : Participant} (h : p.IsDrawn i ms) (hi : i < r.length) :
    ∀ m ∈ ms, m.Between 20 (4 * r.width - 20) :=
  fun m hm => (h.between m hm).mono (boxAt_le_width hi).1 (boxAt_le_width hi).2

theorem Note.IsDrawn.inside {n : Note} (h : n.IsDrawn i ms) (hi : i < r.length) :
    ∀ m ∈ ms, m.Between 20 (4 * r.width - 20) :=
  fun m hm => (h.between m hm).mono (boxAt_le_width hi).1 (boxAt_le_width hi).2

/-- Also a message of the last participant to itself is between the edges. -/
theorem Signal.IsDrawn.inside {s : Signal} (h : s.IsDrawn i j ms) (hi : i < r.length)
    (hj : j < r.length) : ∀ m ∈ ms, m.Between 20 (4 * r.width - 20) := by
  have hright := (boxAt_le_width (max_lt hi hj)).2
  have hx := lifelineAt_eq (max i j)
  refine fun m hm => (h.between m hm).mono ?_ (by omega)
  simp only [lifelineAt]
  omega

/-- Participants who are put into the slots of their order are drawn there. -/
theorem Roster.isDrawn_of_seated {p : Participant} (hi : r.seated[i]? = some p) (height : Nat) :
    i < r.length ∧ p.IsDrawn i ((p.shape (units height)).marks 0 0) := by
  have hlt : i < r.length := by simpa [seated] using (List.getElem?_eq_some_iff.1 hi).1
  obtain ⟨q, -, rfl⟩ : ∃ q, r[i]? = some q ∧ { q with position := (i : Int) } = p := by
    simpa [seated] using hi
  exact ⟨hlt, Participant.isDrawn_shape rfl height⟩

end Edges

theorem Diagram.nodup_names_read {text : String} (hf : (read text).fault = none) :
    (read text).diagram.roster.names.Nodup := by
  simp only [read, fault_readText, diagram_readText] at hf ⊢
  rw [roster_readLines hf]
  exact Roster.nodup_names_registerAll (r := empty.roster) List.nodup_nil _

/-- The participants of an element of a text have slots of their own. -/
theorem Diagram.exists_slot {text : String} (hf : (read text).fault = none) {b : Placed}
    (hb : b ∈ (read text).diagram.placed) {name : String} (hn : name ∈ b.element.participants) :
    ∃ i : Nat, (read text).diagram.roster.names[i]? = some name ∧
      (read text).diagram.roster.seated.position name = i := by
  have hmem : name ∈ (read text).diagram.roster.names := by
    obtain ⟨q, -, hq⟩ := Element.get?_of_mem_layout hb
    simp only [read, fault_readText, diagram_readText] at hf hq ⊢
    exact mem_names_of_element? hf hq hn
  obtain ⟨i, p, hp, rfl⟩ := Roster.exists_getElem?_of_mem_names hmem
  exact ⟨i, by simp [Roster.names, hp], Roster.position_seated (nodup_names_read hf) hp⟩

end SequenceDiagram
