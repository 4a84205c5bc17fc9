import SequenceDiagram.Drawing.Picture
import SequenceDiagram.Proofs.Element.Memory
import SequenceDiagram.Proofs.Element.Walk
import SequenceDiagram.Proofs.Quantity.Exact

/-!
# Layouts and heights

Heights are computed from the inside out and layouts from the outside in, and the two agree: the
elements of a block fill exactly the room that its height reserves for them. Sizes and places are
compared by their exact values; those are also what the places come to when they are worked out,
as long as nothing is rounded.

## Main definitions

* `Placed.layout`: an element where it stands, and all elements in it
* `Placed.bottom`: where an element ends
* `Tiles`: elements that follow one another from one height to another
* `BlockKind.Arranges`: how a block arranges its elements
* `Placed.DrawsFrameTo`: where the frame of a block ends that is drawn

## Main results

* `Element.layout_block`: what is placed in a block
* `BlockKind.arranges_row`: the elements of a block are arranged in its room
* `Element.mem_layout`: what is placed in an element is placed as it is on its own
* `layout_arranges`: every block of a layout is arranged in its room
-/

namespace SequenceDiagram

open Metrics
open Quantity (units)

namespace Placed

/-- An element where it stands, and all elements in it. -/
def layout (e : Placed) : List Placed := e.element.layout [] e.path e.top

/-- Where an element ends, in quarters. -/
def bottom (e : Placed) : Int := e.top.toQuarters + 4 * e.height

end Placed

/-- The elements of a list, from index `i` on of the block at a path, where they stand. -/
def placedRow (p : Path) (i : Nat) : List Quantity → List Element → List Placed
  | top :: tops, e :: es => ⟨p ++ [i], top, e.height, e⟩ :: placedRow p (i + 1) tops es
  | _, _ => []

/-- The elements of a block that begins at `top`, where they stand. -/
def BlockKind.row (k : BlockKind) (p : Path) (top : Quantity) (children : List Element) :
    List Placed :=
  placedRow p 0 (k.tops top (Element.block k children).height (children.map Element.height))
    children

/-! ## What is placed in a block -/

theorem layoutAll_eq_flatMap (p : Path) (i : Nat) (tops : List Quantity) (es : List Element) :
    Element.layoutAll [] p i tops es = (placedRow p i tops es).flatMap Placed.layout := by
  induction es generalizing i tops with
  | nil => cases tops <;> rfl
  | cons e es ih =>
    cases tops with
    | nil => rfl
    | cons top tops => simp [Element.layoutAll, placedRow, Placed.layout, ih]

theorem map_element_placedRow (p : Path) (i : Nat) {tops : List Quantity} {es : List Element}
    (h : tops.length = es.length) : (placedRow p i tops es).map Placed.element = es := by
  induction es generalizing i tops with
  | nil => cases tops <;> rfl
  | cons e es ih =>
    cases tops with
    | nil => simp at h
    | cons top tops => simp [placedRow, ih _ (Nat.succ.inj h)]

theorem path_getElem?_placedRow (p : Path) (i : Nat) (tops : List Quantity) (es : List Element)
    {j : Nat} {c : Placed} (h : (placedRow p i tops es)[j]? = some c) :
    c.path = p ++ [i + j] ∧ c.height = c.element.height := by
  induction es generalizing i j tops with
  | nil => cases tops <;> simp [placedRow] at h
  | cons e es ih =>
    cases tops with
    | nil => simp [placedRow] at h
    | cons top tops =>
      cases j with
      | zero =>
        obtain rfl : _ = c := by simpa [placedRow] using h
        simp
      | succ j =>
        rw [Nat.add_comm j, ← Nat.add_assoc]
        exact ih (i + 1) tops (by simpa [placedRow] using h)

/-- What is placed in a block: the block itself, and its elements one after another. -/
theorem Element.layout_block (k : BlockKind) (children : List Element) (p : Path)
    (top : Quantity) :
    (block k children).layout [] p top =
      ⟨p, top, (block k children).height, block k children⟩ ::
        (k.row p top children).flatMap Placed.layout := by
  have hh : (children.mapIdx fun i e => Heights.read [] (p ++ [i]) e) = children.map height :=
    List.ext_getElem (by simp) (by simp)
  rw [Element.layout, layoutAll_eq_flatMap, hh]
  rfl

theorem Element.layout_leaf {e : Element} (he : e.kind? = none) (p : Path) (top : Quantity) :
    e.layout [] p top = [⟨p, top, e.height, e⟩] := by
  cases e with
  | block k children => simp [kind?] at he
  | _ => rfl

namespace BlockKind

variable (k : BlockKind) (p : Path) (top : Quantity) (children : List Element)

@[simp] theorem map_element_row : (k.row p top children).map Placed.element = children :=
  map_element_placedRow p 0 (by simp)

theorem of_getElem?_row {i : Nat} {c : Placed} (h : (k.row p top children)[i]? = some c) :
    c.path = p ++ [i] ∧ c.height = c.element.height := by
  simpa using path_getElem?_placedRow p 0 _ _ h

variable {k p top children}

theorem of_mem_row {c : Placed} (h : c ∈ k.row p top children) :
    c.element ∈ children ∧ c.height = c.element.height := by
  obtain ⟨i, hi⟩ := List.getElem?_of_mem h
  refine ⟨?_, (k.of_getElem?_row p top children hi).2⟩
  rw [← k.map_element_row p top children]
  exact List.mem_map_of_mem h

theorem exists_mem_row {e : Element} (h : e ∈ children) :
    ∃ c ∈ k.row p top children, c.element = e := by
  rw [← k.map_element_row p top children] at h
  exact List.mem_map.1 h

end BlockKind

/-- What is placed in an element is as high as it is and is placed as it would be on its own. -/
theorem Element.mem_layout {e : Element} {p : Path} {top : Quantity} {b : Placed}
    (hb : b ∈ e.layout [] p top) :
    b.height = b.element.height ∧ b.layout <:+: e.layout [] p top := by
  -- By induction on the element, for all places: what is placed in a block is the block or is
  -- placed in one of its elements.
  induction e using Element.induction generalizing p top with
  | leaf e he =>
    rw [layout_leaf he] at hb
    obtain rfl := List.mem_singleton.1 hb
    exact ⟨rfl, List.infix_refl _⟩
  | block k children ih =>
    rw [layout_block] at hb
    rcases List.mem_cons.1 hb with rfl | hb
    · exact ⟨rfl, List.infix_refl _⟩
    · obtain ⟨c, hc, hbc⟩ := List.mem_flatMap.1 hb
      obtain ⟨hh, hi⟩ := ih c.element (BlockKind.of_mem_row hc).1 hbc
      have hrow : c.layout <:+: (k.row p top children).flatMap Placed.layout :=
        List.infix_of_mem_flatten (List.mem_map_of_mem hc)
      rw [layout_block]
      exact ⟨hh, hi.trans (hrow.trans (List.suffix_cons ..).isInfix)⟩

/-! ## How a block arranges its elements -/

/-- Elements follow one another from one height to another, in quarters. -/
def Tiles : Int → List Placed → Int → Prop
  | low, [], high => low = high
  | low, c :: cs, high => c.top.toQuarters = low ∧ Tiles c.bottom cs high

/-- How a block arranges its elements. They follow one another from the top of the block to its
bottom, or within its frame, which has a header of 50 units and leaves 10 units below it free. In
a parallel block they end together at its bottom, and one of them reaches up to its top. -/
def BlockKind.Arranges (k : BlockKind) (b : Placed) (cs : List Placed) : Prop :=
  match k with
  | sequence => Tiles b.top.toQuarters cs b.bottom
  | framed .. | alternative .. => Tiles (b.top.toQuarters + 4 * 50) cs (b.bottom - 4 * 10)
  | parallel =>
    (∀ c ∈ cs, c.bottom = b.bottom ∧ b.top.toQuarters ≤ c.top.toQuarters) ∧
      (cs ≠ [] → ∃ c ∈ cs, c.top.toQuarters = b.top.toQuarters)

theorem tiles_stacked (p : Path) (i : Nat) (top : Quantity) (es : List Element) :
    Tiles top.toQuarters (placedRow p i (stacked top (es.map Element.height)) es)
      (stackEnd top (es.map Element.height)).toQuarters := by
  induction es generalizing i top with
  | nil => rfl
  | cons e es ih =>
    have hb : Placed.bottom ⟨p ++ [i], top, e.height, e⟩ = (top + units e.height).toQuarters := by
      rw [Placed.bottom, Quantity.toQuarters_add, Quantity.toQuarters_units]
    refine ⟨rfl, ?_⟩
    rw [hb]
    exact ih (i + 1) (top + units e.height)

theorem top_of_mem_placedRow {p : Path} {i : Nat} {f : Nat → Quantity} {es : List Element}
    {c : Placed} (h : c ∈ placedRow p i ((es.map Element.height).map f) es) :
    c.top = f c.height := by
  induction es generalizing i with
  | nil => simp [placedRow] at h
  | cons e es ih =>
    rcases List.mem_cons.1 h with rfl | h
    · rfl
    · exact ih h

/-- The elements of a parallel block end together, and the tallest begins at the top. -/
theorem parallel_arranges_row (p : Path) (top : Quantity) (children : List Element) :
    BlockKind.parallel.Arranges
      ⟨p, top, (Element.block .parallel children).height, .block .parallel children⟩
      (BlockKind.parallel.row p top children) := by
  -- An element begins where its own height is left to the bottom of the block.
  have htop : ∀ c ∈ BlockKind.parallel.row p top children, c.top.toQuarters =
      top.toQuarters + 4 * (Element.block .parallel children).height - 4 * c.height := by
    intro c hc
    rw [top_of_mem_placedRow hc, Quantity.toQuarters_sub, Quantity.toQuarters_add,
      Quantity.toQuarters_units, Quantity.toQuarters_units]
  have hown : (Element.block .parallel children).height =
      (children.map Element.height).max?.getD 0 := by
    rw [Element.height_block, BlockKind.height, Element.foldr_max_eq]
  constructor
  · intro c hc
    obtain ⟨hce, hch⟩ := BlockKind.of_mem_row hc
    have hle : c.height ≤ (Element.block .parallel children).height := by
      rw [Element.height_block, hch]
      exact Element.le_foldr_max (List.mem_map_of_mem hce)
    have ht := htop c hc
    simp only [Placed.bottom]
    omega
  · intro hne
    cases hm : (children.map Element.height).max? with
    | none =>
      have hnil : children = [] := by simpa using hm
      simp [hnil, BlockKind.row, placedRow] at hne
    | some own =>
      obtain ⟨e, he, heq⟩ := List.mem_map.1 (List.max?_mem hm)
      obtain ⟨c, hc, rfl⟩ := BlockKind.exists_mem_row he
      refine ⟨c, hc, ?_⟩
      have ht := htop c hc
      rw [hown, hm, Option.getD_some, (BlockKind.of_mem_row hc).2, heq] at ht
      simp only
      omega

/-- **The elements of a block are arranged in its room.** -/
theorem BlockKind.arranges_row (k : BlockKind) (p : Path) (top : Quantity)
    (children : List Element) :
    k.Arranges ⟨p, top, (Element.block k children).height, .block k children⟩
      (k.row p top children) := by
  have hk : (Element.block k children).height = k.height (children.map Element.height) :=
    Element.height_block ..
  -- Within a frame the stack begins below its header.
  have hframe : ∀ {hs : List Nat}, (stackEnd (top + units frameHeader) hs).toQuarters =
      top.toQuarters + 4 * ((frameHeight + total hs : Nat) : Int) - 4 * 10 := by
    intro hs
    rw [toQuarters_stackEnd, Quantity.toQuarters_add, Quantity.toQuarters_units]
    simp only [frameHeader, frameHeight]
    omega
  cases k with
  | sequence =>
    have h := tiles_stacked p 0 top children
    rw [toQuarters_stackEnd] at h
    simpa [Arranges, row, tops, Placed.bottom, hk, height] using h
  | parallel => exact parallel_arranges_row p top children
  | framed keyword label =>
    have h := tiles_stacked p 0 (top + units frameHeader) children
    rw [hframe] at h
    simpa [Arranges, row, tops, Placed.bottom, hk, height] using h
  | alternative condition =>
    have h := tiles_stacked p 0 (top + units frameHeader) children
    rw [hframe] at h
    simpa [Arranges, row, tops, Placed.bottom, hk, height] using h

/-- What follows one another from one height to another is between the two. -/
theorem Tiles.slot {low high : Int} {cs : List Placed} (h : Tiles low cs high) :
    low ≤ high ∧ ∀ c ∈ cs, low ≤ c.top.toQuarters ∧ c.bottom ≤ high := by
  induction cs generalizing low with
  | nil => exact ⟨Int.le_of_eq h, by simp⟩
  | cons c cs ih =>
    obtain ⟨rfl, h⟩ := h
    obtain ⟨hle, hcs⟩ := ih h
    have hc : c.top.toQuarters ≤ c.bottom := by
      simp only [Placed.bottom]
      omega
    refine ⟨by omega, ?_⟩
    intro d hd
    rcases List.mem_cons.1 hd with rfl | hd
    · exact ⟨Int.le_refl _, hle⟩
    · have := hcs d hd
      omega

namespace BlockKind.Arranges

variable {k : BlockKind} {b c : Placed} {cs : List Placed}

/-- The elements in a frame are below its header and above its lower edge. -/
theorem slot_of_isFramed (h : k.Arranges b cs) (hk : k.isFramed = true) (hc : c ∈ cs) :
    b.top.toQuarters + 4 * 50 ≤ c.top.toQuarters ∧ c.bottom ≤ b.bottom - 4 * 10 := by
  cases k with
  | framed keyword label => exact h.slot.2 c hc
  | alternative condition => exact h.slot.2 c hc
  | _ => simp [isFramed] at hk

/-- The elements of a block are in its room. -/
theorem slot (h : k.Arranges b cs) (hc : c ∈ cs) :
    b.top.toQuarters ≤ c.top.toQuarters ∧ c.bottom ≤ b.bottom := by
  cases k with
  | sequence => exact h.slot.2 c hc
  | parallel =>
    obtain ⟨hb, ht⟩ := h.1 c hc
    exact ⟨ht, Int.le_of_eq hb⟩
  | framed keyword label =>
    have := h.slot_of_isFramed rfl hc
    omega
  | alternative condition =>
    have := h.slot_of_isFramed rfl hc
    omega

end BlockKind.Arranges

/-! ## What holds of everything that is placed -/

/-- What an element has where it stands and a block hands to its elements, all have that is
placed. -/
theorem Element.forall_mem_layout {P : Placed → Prop}
    (step : ∀ k children p top,
      P ⟨p, top, (block k children).height, block k children⟩ → ∀ c ∈ k.row p top children, P c)
    {e : Element} {p : Path} {top : Quantity} (he : P ⟨p, top, e.height, e⟩) :
    ∀ b ∈ e.layout [] p top, P b := by
  induction e using Element.induction generalizing p top with
  | leaf e hk =>
    rw [layout_leaf hk]
    simpa using he
  | block k children ih =>
    rw [layout_block]
    intro b hb
    rcases List.mem_cons.1 hb with rfl | hb
    · exact he
    · obtain ⟨c, hc, hbc⟩ := List.mem_flatMap.1 hb
      obtain ⟨hce, hch⟩ := BlockKind.of_mem_row hc
      have hP := step k children p top he c hc
      refine ih c.element hce ?_ b hbc
      rw [← hch]
      exact hP

/-- What is placed in an element is in its room. -/
theorem Element.slot_of_mem_layout {e : Element} {p : Path} {top : Quantity} {b : Placed}
    (hb : b ∈ e.layout [] p top) :
    top.toQuarters ≤ b.top.toQuarters ∧ b.bottom ≤ top.toQuarters + 4 * e.height := by
  refine Element.forall_mem_layout (P := fun b => top.toQuarters ≤ b.top.toQuarters ∧
    b.bottom ≤ top.toQuarters + 4 * e.height) ?_ ⟨Int.le_refl _, Int.le_refl _⟩ b hb
  rintro k children p' top' ⟨ht, hb⟩ c hc
  obtain ⟨hct, hcb⟩ := (k.arranges_row p' top' children).slot hc
  exact ⟨Int.le_trans ht hct, Int.le_trans hcb hb⟩

theorem top_mem_of_mem_placedRow {p : Path} {i : Nat} {tops : List Quantity} {es : List Element}
    {c : Placed} (h : c ∈ placedRow p i tops es) : c.top ∈ tops := by
  induction es generalizing i tops with
  | nil => cases tops <;> simp [placedRow] at h
  | cons e es ih =>
    cases tops with
    | nil => simp [placedRow] at h
    | cons top tops =>
      rcases List.mem_cons.1 h with rfl | h
      · exact List.mem_cons_self
      · exact List.mem_cons_of_mem _ (ih h)

/-! ## Places without rounding -/

theorem isExact_stacked {top t : Quantity} {hs : List Nat} (ht : top.IsExact)
    (hb : top.toQuarters.natAbs + 4 * total hs < binaryBound) (h : t ∈ stacked top hs) :
    t.IsExact := by
  induction hs generalizing top with
  | nil => simp [stacked] at h
  | cons g gs ih =>
    rw [total_cons] at hb
    rcases List.mem_cons.1 h with rfl | h
    · exact ht
    · refine ih (ht.add_units (by omega)) ?_ h
      rw [Quantity.toQuarters_add, Quantity.toQuarters_units]
      omega

/-- The places of the elements of a block are not rounded if its own place and height are small
enough. -/
theorem BlockKind.isExact_tops {k : BlockKind} {top t : Quantity} {hs : List Nat}
    (ht : top.IsExact) (hb : top.toQuarters.natAbs + 4 * k.height hs < binaryBound)
    (h : t ∈ k.tops top (k.height hs) hs) : t.IsExact := by
  have hframe : 4 * (frameHeight + total hs) + top.toQuarters.natAbs < binaryBound →
      t ∈ stacked (top + units frameHeader) hs → t.IsExact := by
    intro hb h
    have hq : (top + units frameHeader).toQuarters = top.toQuarters + 4 * 50 := by
      rw [Quantity.toQuarters_add, Quantity.toQuarters_units]
      rfl
    simp only [frameHeight] at hb
    exact isExact_stacked (ht.add_units (by simp only [frameHeader]; omega)) (by omega) h
  cases k with
  | sequence => exact isExact_stacked ht hb h
  | framed keyword label => exact hframe (by simpa [height, Nat.add_comm] using hb) h
  | alternative condition => exact hframe (by simpa [height, Nat.add_comm] using hb) h
  | parallel =>
    obtain ⟨g, hg, rfl⟩ := List.mem_map.1 h
    have hle : g ≤ height .parallel hs := Element.le_foldr_max hg
    have hq := Quantity.toQuarters_add top (units (height .parallel hs))
    rw [Quantity.toQuarters_units] at hq
    -- The sum lies between the place and the bottom of the block, and so does the difference.
    refine (ht.add_units hb).sub_units (by omega) (by omega) ?_
    rw [Quantity.toQuarters_sub, Quantity.toQuarters_units]
    omega

/-- No place in a layout is rounded if that of the whole and its height are small enough. -/
theorem Element.isExact_of_mem_layout {e : Element} {p : Path} {top : Quantity}
    (ht : top.IsExact) (hb : top.toQuarters.natAbs + 4 * e.height < binaryBound) :
    ∀ b ∈ e.layout [] p top, b.top.IsExact := by
  intro b hb'
  refine (Element.forall_mem_layout (P := fun b => b.top.IsExact ∧
    b.top.toQuarters.natAbs + 4 * b.height < binaryBound) ?_ ⟨ht, hb⟩ b hb').1
  rintro k children p' top' ⟨ht', hb'⟩ c hc
  obtain ⟨hct, hcb⟩ := (k.arranges_row p' top' children).slot hc
  refine ⟨?_, ?_⟩
  · rw [height_block] at hb'
    have hm := top_mem_of_mem_placedRow hc
    rw [height_block] at hm
    exact BlockKind.isExact_tops ht' hb' hm
  · simp only [Placed.bottom] at hct hcb hb'
    omega

theorem whole_of_mem_stacked {n : Int} {t : Quantity} {hs : List Nat}
    (h : t ∈ stacked (.whole n) hs) : ∃ m, t = .whole m := by
  induction hs generalizing n with
  | nil => simp [stacked] at h
  | cons g gs ih =>
    rcases List.mem_cons.1 h with rfl | h
    · exact ⟨n, rfl⟩
    · exact ih (n := n + g) h

/-- The elements of a block stand at whole numbers if the block does. -/
theorem BlockKind.whole_of_mem_row {k : BlockKind} {p : Path} {n : Int} {children : List Element}
    {c : Placed} (hc : c ∈ k.row p (.whole n) children) : ∃ m, c.top = .whole m := by
  have hmem := top_mem_of_mem_placedRow hc
  cases k with
  | sequence => exact whole_of_mem_stacked hmem
  | framed keyword label => exact whole_of_mem_stacked (n := n + frameHeader) hmem
  | alternative condition => exact whole_of_mem_stacked (n := n + frameHeader) hmem
  | parallel =>
    obtain ⟨g, -, hg⟩ := List.mem_map.1 hmem
    exact ⟨n + (Element.block .parallel children).height - g, hg.symm⟩

/-- Everything that is placed stands at a whole number if the whole does. -/
theorem Element.whole_of_mem_layout {e : Element} {p : Path} (n : Int) :
    ∀ b ∈ e.layout [] p (.whole n), ∃ m, b.top = .whole m := by
  refine Element.forall_mem_layout (P := fun b => ∃ m, b.top = .whole m) ?_ ⟨n, rfl⟩
  rintro k children p' top' ⟨m, hm⟩ c hc
  obtain rfl : top' = .whole m := hm
  exact BlockKind.whole_of_mem_row hc

/-! ## Frames -/

/-- A frame is drawn for a block that begins where the block does and ends at a height, in
quarters. -/
def Placed.DrawsFrameTo (b : Placed) (r : Roster) (width : Quantity) (low : Int) : Prop :=
  ∃ x w h parts, b.shapes r width = [.group x b.top parts] ∧ .box 0 0 w h .none 0 ∈ parts ∧
    b.top.toQuarters + h.toQuarters = low

theorem Placed.shapes_of_caption? {b : Placed} {k : BlockKind} {children : List Element}
    {keyword comment : String} (he : b.element = .block k children)
    (hc : k.caption? = some (keyword, comment)) (r : Roster) (width : Quantity) :
    b.shapes r width =
      [Drawing.frame (units (frameInset * (b.depth + 1))) b.top
        (width - units (frameInset * (b.depth + 1) * 2)).clamp (units (b.height - frameGap))
        keyword comment] := by
  simp only [shapes, he, hc]

/-- The frame of a block ends 10 units above the bottom of the block. -/
theorem Placed.drawsFrameTo {b : Placed} {k : BlockKind} {children : List Element}
    (he : b.element = .block k children) (hk : k.isFramed = true)
    (hh : b.height = b.element.height) (r : Roster) (width : Quantity) :
    b.DrawsFrameTo r width (b.bottom - 4 * 10) := by
  obtain ⟨keyword, comment, hc⟩ := BlockKind.isFramed_iff.1 hk
  have hle : frameHeight ≤ b.height := by
    rw [hh, he, Element.height_block]
    exact BlockKind.frameHeight_le hk _
  rw [DrawsFrameTo, shapes_of_caption? he hc]
  -- The border of a frame is drawn after the ground of its notch.
  refine ⟨_, _, _, _, rfl, List.mem_append_left _ (List.mem_cons_of_mem _ List.mem_cons_self), ?_⟩
  simp only [bottom, Quantity.toQuarters_units, frameGap, frameHeight] at hle ⊢
  omega

end SequenceDiagram
