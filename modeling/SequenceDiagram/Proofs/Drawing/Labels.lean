import Mathlib.Data.List.Basic
import SequenceDiagram.Proofs.Diagram.Session
import SequenceDiagram.Proofs.Layout.Tiling

/-!
# What a picture says

The texts of a picture, in the order in which they are drawn, are the labels of the participants,
each of them twice, and then what the elements say, a block before the elements in it. Where a
text stands and what else is drawn does not count here.

## Main definitions

* `Shape.labels`: the texts of a shape
* `BlockKind.labels`, `Element.labels`, `Diagram.labels`: what blocks, elements and diagrams say

## Main results

* `Placed.labels_shapes`: the shapes of an element say what it says itself
* `Element.labels_layout`: the shapes of a whole layout say what the element says
* `Diagram.MemorySound.labels_draw`: a picture says what its diagram says
-/

namespace SequenceDiagram

open Metrics Drawing
open Quantity (units)

/-- Places in a list that make no difference to what is made of its members. -/
theorem flatMap_mapIdx {α β γ : Type} {f : Nat → α → β} {g : β → List γ} {h : α → List γ}
    (hf : ∀ i a, g (f i a) = h a) (as : List α) : (as.mapIdx f).flatMap g = as.flatMap h := by
  induction as generalizing f with
  | nil => rfl
  | cons a as ih =>
    rw [List.mapIdx_cons, List.flatMap_cons, List.flatMap_cons, hf, ih fun i a => hf (i + 1) a]

/-! ## What a diagram says -/

/-- A text in brackets, unless it is empty. -/
def bracketed (s : String) : List String := if s = "" then [] else ["[" ++ s ++ "]"]

/-- What a block says itself. -/
def BlockKind.labels : BlockKind → List String
  | sequence | parallel => []
  | framed keyword label => keyword :: bracketed label
  | alternative condition => "alt" :: bracketed condition

namespace Element

mutual

/-- What an element says, a block before the elements in it. -/
def labels : Element → List String
  | signal s => s.text
  | note n => n.text
  | separator condition => ["[" ++ condition ++ "]"]
  | block k children => k.labels ++ labelsAll children

/-- What several elements say, one after another. -/
def labelsAll : List Element → List String
  | [] => []
  | e :: es => e.labels ++ labelsAll es

end

@[simp] theorem labelsAll_eq_flatMap (es : List Element) : labelsAll es = es.flatMap labels := by
  induction es with
  | nil => rfl
  | cons e es ih => simp [labelsAll, ih]

theorem labels_block (k : BlockKind) (children : List Element) :
    (block k children).labels = k.labels ++ children.flatMap labels := by
  rw [labels, labelsAll_eq_flatMap]

end Element

/-- What a diagram says: the label of every participant twice, and what its elements say. -/
def Diagram.labels (d : Diagram) : List String :=
  d.roster.flatMap (fun p => p.text ++ p.text) ++ d.root.labels

/-! ## Texts of shapes -/

namespace Shape

mutual

/-- The texts of a shape. -/
def labels : Shape → List String
  | text _ _ content _ => [content]
  | group _ _ shapes => labelsAll shapes
  | area .. | box .. | line .. | polygon .. => []

/-- The texts of several shapes. -/
def labelsAll : List Shape → List String
  | [] => []
  | s :: ss => s.labels ++ labelsAll ss

end

@[simp] theorem labelsAll_eq_flatMap (ss : List Shape) : labelsAll ss = ss.flatMap labels := by
  induction ss with
  | nil => rfl
  | cons s ss ih => simp [labelsAll, ih]

end Shape

namespace Drawing

open Shape

attribute [local simp] labels

@[simp] theorem labels_centredLines (x : Quantity) (y : Nat) (lines : List String) :
    (centredLines x y lines).flatMap labels = lines := by
  rw [centredLines, flatMap_mapIdx (h := fun content => [content]) fun _ _ => by rw [labels]]
  simp

@[simp] theorem labels_labelledBox (x y : Quantity) (lines : List String) (paint : Paint) :
    (labelledBox x y lines paint).labels = lines := by
  simp [labelledBox]

theorem labels_lifeline (x y height : Quantity) (lines : List String) :
    (lifeline x y height lines).labels = lines ++ lines := by
  simp [lifeline]

theorem labels_frame (x y width height : Quantity) (keyword comment : String) :
    (frame x y width height keyword comment).labels = keyword :: bracketed comment := by
  by_cases h : comment = "" <;> simp [frame, bracketed, h]

theorem labels_separator (left y width : Quantity) (condition : String) :
    (separator left y width condition).flatMap labels = ["[" ++ condition ++ "]"] := by
  simp [separator]

theorem labels_arrowhead (x y : Quantity) (pointingRight openHead : Bool) :
    (arrowhead x y pointingRight openHead).labels = [] := by
  simp [arrowhead]

theorem labels_shaft (length y : Int) (style : ArrowStyle) :
    (shaft length y style).flatMap labels = [] := by
  unfold shaft
  split
  · simp [labels_arrowhead]
  · split <;> simp [labels_arrowhead]

theorem labels_arrow (x y : Quantity) (span : Int) (lines : List String) (style : ArrowStyle) :
    (arrow x y span lines style).labels = lines := by
  simp [arrow, labels_shaft]

end Drawing

/-! ## Layouts and pictures -/

/-- The shapes of an element say what it says itself, without the elements in it. -/
theorem Placed.labels_shapes (r : Roster) (width : Quantity) (e : Placed) :
    (e.shapes r width).flatMap Shape.labels =
      match e.element with
      | .block k _ => k.labels
      | leaf => leaf.labels := by
  obtain ⟨p, top, height, e⟩ := e
  cases e with
  | signal s => simp [shapes, Signal.shape, labels_arrow, Element.labels]
  | note n => simp [shapes, Element.labels]
  | separator condition => simp [shapes, labels_separator, Element.labels]
  | block k children =>
    cases k <;> simp [shapes, BlockKind.caption?, BlockKind.labels, labels_frame]

/-- **The shapes of a layout say what the element says**, wherever they stand. -/
theorem Element.labels_layout (r : Roster) (width : Quantity) (e : Element) (p : Path)
    (top : Quantity) :
    ((e.layout [] p top).flatMap (Placed.shapes r width)).flatMap Shape.labels = e.labels := by
  rw [List.flatMap_assoc]
  induction e using Element.induction generalizing p top with
  | leaf e he =>
    rw [layout_leaf he, List.flatMap_singleton, Placed.labels_shapes]
    cases e with
    | block k children => simp [kind?] at he
    | _ => rfl
  | block k children ih =>
    rw [layout_block, List.flatMap_cons, Placed.labels_shapes, List.flatMap_assoc, labels_block]
    congr 1
    calc (k.row p top children).flatMap
          (fun c => c.layout.flatMap fun b => (b.shapes r width).flatMap Shape.labels)
      _ = (k.row p top children).flatMap fun c => c.element.labels := by
        refine List.flatMap_congr fun c hc => ?_
        exact ih _ (BlockKind.of_mem_row hc).1 c.path c.top
      _ = children.flatMap labels := by
        rw [← List.flatMap_map, k.map_element_row]

namespace Diagram

/-- **A picture says what its diagram says.** -/
theorem MemorySound.labels_draw {d : Diagram} (h : d.MemorySound) :
    d.draw.1.shapes.flatMap Shape.labels = d.labels := by
  rw [h.draw_fst]
  simp only [List.flatMap_append, placed, Element.labels_layout, labels]
  rw [List.flatMap_map, Roster.seated]
  congr 1
  exact flatMap_mapIdx (fun _ _ => by rw [Participant.shape, labels_lifeline]) d.roster

end Diagram

end SequenceDiagram
