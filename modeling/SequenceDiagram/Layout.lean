import SequenceDiagram.Element.Heights
import SequenceDiagram.Quantity.Basic

/-!
# Layout

Where each element of a tree begins. A block begins where it is put; its elements follow one
another, below the header of the frame if it has one, or end together in a parallel block.

## Main definitions

* `stacked`, `stackEnd`: where things in a stack begin, and where the stack ends
* `BlockKind.tops`: where the elements of a block begin
* `Placed`: an element and where it begins
* `Element.layout`: an element and all elements in it, in the order in which they are drawn

## Main results

* `BlockKind.length_tops`: every element is placed
* `stacked_append`: the elements of a stack follow one another
* `toQuarters_stackEnd`: a stack is as high as the things in it together
-/

namespace SequenceDiagram

open Metrics Quantity

/-- Where things of the given heights begin that are stacked from `top` on. -/
def stacked (top : Quantity) : List Nat → List Quantity
  | [] => []
  | h :: hs => top :: stacked (top + units h) hs

/-- Where a stack of things of the given heights ends. -/
def stackEnd (top : Quantity) (heights : List Nat) : Quantity :=
  heights.foldl (fun y h => y + units h) top

@[simp] theorem length_stacked (top : Quantity) (hs : List Nat) :
    (stacked top hs).length = hs.length := by
  induction hs generalizing top with
  | nil => rfl
  | cons h hs ih => simp [stacked, ih]

theorem stacked_append (top : Quantity) (gs hs : List Nat) :
    stacked top (gs ++ hs) = stacked top gs ++ stacked (stackEnd top gs) hs := by
  induction gs generalizing top with
  | nil => rfl
  | cons g gs ih => simp [stacked, stackEnd, ih]

theorem toQuarters_stackEnd (top : Quantity) (hs : List Nat) :
    (stackEnd top hs).toQuarters = top.toQuarters + 4 * (total hs : Int) := by
  induction hs generalizing top with
  | nil => simp [stackEnd]
  | cons h hs ih =>
    change (stackEnd (top + units h) hs).toQuarters = _
    rw [ih, toQuarters_add, toQuarters_units, total_cons]
    omega

/-- Where the elements of a block begin that itself begins at `top` and takes the room `own`, and
whose elements take rooms of the given heights. -/
def BlockKind.tops (k : BlockKind) (top : Quantity) (own : Nat) (heights : List Nat) :
    List Quantity :=
  match k with
  | sequence => stacked top heights
  | parallel => heights.map fun h => top + units own - units h
  | framed .. | alternative .. => stacked (top + units frameHeader) heights

@[simp] theorem BlockKind.length_tops (k : BlockKind) (top : Quantity) (own : Nat)
    (heights : List Nat) : (k.tops top own heights).length = heights.length := by
  cases k <;> simp [tops]

/-- An element of a tree, where it stands and where it begins. -/
structure Placed where
  path : Path
  top : Quantity
  height : Nat
  element : Element

/-- How many blocks are around an element. -/
def Placed.depth (e : Placed) : Nat := e.path.length

namespace Element

mutual

/-- The element at a path that begins at `top`, and all elements in it, a block before its
elements. Heights are taken from memory where they are remembered. -/
def layout (m : Heights) (p : Path) (top : Quantity) : Element → List Placed
  | .block k children =>
    let own := m.read p (.block k children)
    let heights := children.mapIdx fun i e => m.read (p ++ [i]) e
    ⟨p, top, own, .block k children⟩ :: layoutAll m p 0 (k.tops top own heights) children
  | e => [⟨p, top, m.read p e, e⟩]

/-- The elements from index `i` on of the block at a path, each from where it begins, and all
elements in them. -/
def layoutAll (m : Heights) (p : Path) (i : Nat) : List Quantity → List Element → List Placed
  | top :: tops, e :: es => layout m (p ++ [i]) top e ++ layoutAll m p (i + 1) tops es
  | _, _ => []

end

end Element

end SequenceDiagram
