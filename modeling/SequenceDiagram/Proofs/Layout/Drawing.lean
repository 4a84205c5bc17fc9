import SequenceDiagram.Proofs.Diagram.Session
import SequenceDiagram.Proofs.Layout.Tiling

/-!
# Drawings of elements

What is drawn of an element goes by its parts: a block draws its own shapes and then its elements,
each where it begins. Of the path of an element only the length shows, which is the number of blocks
around it.

## Main definitions

* `Element.drawing`: the shapes of an element and of all elements in it
* `BlockKind.places`: the elements of a block, each with where it begins

## Main results

* `Element.drawing_of_length_eq`: paths of one length have the same drawing
* `Element.drawing_block`: the drawing of a block, from those of its elements
* `Diagram.MemorySound.shapes_draw`: the drawing of a diagram
-/

namespace SequenceDiagram

open Quantity (units)

namespace Element

/-- The shapes of an element at a path that begins at `top`, and of all elements in it. -/
def drawing (r : Roster) (width : Quantity) (p : Path) (top : Quantity) (e : Element) :
    List Shape :=
  (e.layout [] p top).flatMap (Placed.shapes r width)

end Element

/-- The elements of a block that begins at `top`, each with where it begins. -/
def BlockKind.places (k : BlockKind) (top : Quantity) (children : List Element) :
    List (Quantity × Element) :=
  (k.tops top (Element.block k children).height (children.map Element.height)).zip children

@[simp] theorem BlockKind.map_snd_places (k : BlockKind) (top : Quantity)
    (children : List Element) : (k.places top children).map Prod.snd = children :=
  List.map_snd_zip (by simp)

theorem BlockKind.mem_of_mem_places (k : BlockKind) {top : Quantity} {children : List Element}
    {c : Quantity × Element} (h : c ∈ k.places top children) : c.2 ∈ children := by
  rw [← k.map_snd_places top children]
  exact List.mem_map_of_mem h

namespace Element

variable {r : Roster} {width : Quantity} {p p' : Path} {top : Quantity}

theorem drawing_leaf {e : Element} (he : e.kind? = none) :
    e.drawing r width p top = Placed.shapes r width ⟨p, top, e.height, e⟩ := by
  rw [drawing, layout_leaf he, List.flatMap_singleton]

/-- The elements of a list are drawn one after another. Their paths may be others of the same
length, if this shows in none of their drawings. -/
theorem flatMap_layout_placedRow {es : List Element}
    (h : ∀ e ∈ es, ∀ (q q' : Path) (top : Quantity), q.length = q'.length →
      e.drawing r width q top = e.drawing r width q' top)
    (hp : p'.length = p.length + 1) (i : Nat) (tops : List Quantity) :
    (placedRow p i tops es).flatMap (fun c => c.layout.flatMap (Placed.shapes r width)) =
      (tops.zip es).flatMap fun c => c.2.drawing r width p' c.1 := by
  induction es generalizing i tops with
  | nil => cases tops <;> rfl
  | cons e es ih =>
    cases tops with
    | nil => rfl
    | cons top tops =>
      have hlen : (p ++ [i]).length = p'.length := by simp [hp]
      have he := h e List.mem_cons_self (p ++ [i]) p' top hlen
      rw [placedRow, List.flatMap_cons, List.zip_cons_cons, List.flatMap_cons,
        ih (fun c hc => h c (List.mem_cons_of_mem _ hc))]
      exact congrArg (· ++ _) he

/-- Of the path of an element only the length shows. -/
theorem drawing_of_length_eq {e : Element} (h : p.length = p'.length) :
    e.drawing r width p top = e.drawing r width p' top := by
  induction e using Element.induction generalizing p p' top with
  | leaf e he =>
    rw [drawing_leaf he, drawing_leaf he]
    simp only [Placed.shapes, Placed.depth, h]
  | block k children ih =>
    have hrow (q : Path) (hq : p.length = q.length) :
        (placedRow q 0 (k.tops top (block k children).height (children.map height)) children).flatMap
            (fun c => c.layout.flatMap (Placed.shapes r width)) =
          (k.places top children).flatMap fun c => c.2.drawing r width (0 :: p) c.1 :=
      flatMap_layout_placedRow (fun e he _ _ _ hl => ih e he hl) (by simp [hq]) 0 _
    simp only [drawing, layout_block, BlockKind.row, List.flatMap_cons, List.flatMap_assoc]
    rw [hrow p rfl, hrow p' h]
    simp only [Placed.shapes, Placed.depth, h]

/-- **A block draws its own shapes and then its elements.** -/
theorem drawing_block (k : BlockKind) (children : List Element) :
    (block k children).drawing r width p top =
      Placed.shapes r width ⟨p, top, (block k children).height, block k children⟩ ++
        (k.places top children).flatMap fun c => c.2.drawing r width (0 :: p) c.1 := by
  rw [drawing, layout_block, List.flatMap_cons, List.flatMap_assoc, BlockKind.row]
  exact congrArg (_ ++ ·) (flatMap_layout_placedRow (fun e _ _ _ _ h => drawing_of_length_eq h)
    rfl 0 _)

end Element

/-- **The drawing of a diagram** are its participants and the drawing of its tree. -/
theorem Diagram.MemorySound.shapes_draw {d : Diagram} (h : d.MemorySound) :
    d.draw.1.shapes =
      d.roster.seated.map
          (Participant.shape · (units (d.roster.headerHeight + d.root.height))) ++
        d.root.drawing d.roster.seated (units d.roster.width) [] (units d.roster.headerHeight) := by
  rw [h.draw_fst]
  rfl

end SequenceDiagram
