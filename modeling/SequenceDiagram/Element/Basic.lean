import SequenceDiagram.Metrics

/-!
# Elements

The body of a diagram is a tree: messages, notes and separators are its leaves, and blocks hold
elements in order. An element is reached from the outermost block by a path of child indices.

## Main definitions

* `Signal`, `Note`: messages between participants and notes over one
* `BlockKind`: the kinds of block
* `total`: the sum of several heights
* `Element`: the elements
* `Element.height`: the room an element takes
* `Element.get?`, `Element.append`: looking up and extending the tree along a path

## Main results

* `Element.height_block`: the height of a block, from the heights of its elements
* `Element.get?_append_self`: the added element stands at the end of its block
-/

namespace SequenceDiagram

open Metrics

/-- A message from one participant to another, both by name. -/
structure Signal where
  source : String
  target : String
  text : List String
  dotted : Bool := false
  double : Bool := false
  openHead : Bool := false
deriving DecidableEq

namespace Signal

/-- Whether the message returns to its sender. -/
def isLoop (s : Signal) : Bool := s.source = s.target

/-- The room a message takes. -/
def height (s : Signal) : Nat := textHeight s.text + if s.isLoop then loopHeight else 0

end Signal

/-- A note over the lifeline of a participant. -/
structure Note where
  participant : String
  text : List String
deriving DecidableEq

/-- The room a note takes. -/
def Note.height (n : Note) : Nat := n.text.length * lineHeight + notePadding

/-- The kinds of block. -/
inductive BlockKind where
  /-- Elements one below the other, without a frame; the outermost block is of this kind. -/
  | sequence
  /-- Elements side by side, ending at the same height. -/
  | parallel
  /-- Elements one below the other in a frame that shows a keyword and a label. -/
  | framed (keyword label : String)
  /-- A frame with a condition, in which separators may stand. -/
  | alternative (condition : String)
deriving DecidableEq

/-- The sum of several heights. -/
def total (heights : List Nat) : Nat := heights.foldr (· + ·) 0

@[simp] theorem total_nil : total [] = 0 := rfl

@[simp] theorem total_cons (h : Nat) (hs : List Nat) : total (h :: hs) = h + total hs := rfl

@[simp] theorem total_append (gs hs : List Nat) : total (gs ++ hs) = total gs + total hs := by
  induction gs with
  | nil => simp
  | cons g gs ih => simp [ih, Nat.add_assoc]

namespace BlockKind

/-- Whether a block has a frame. -/
def isFramed : BlockKind → Bool
  | framed .. | alternative .. => true
  | sequence | parallel => false

/-- Whether separators may stand in a block. -/
def isAlternative : BlockKind → Bool
  | alternative .. => true
  | _ => false

/-- The room a block takes whose elements take rooms of the given heights. -/
def height (k : BlockKind) (heights : List Nat) : Nat :=
  match k with
  | sequence => total heights
  | parallel => heights.foldr max 0
  | framed .. | alternative .. => frameHeight + total heights

theorem frameHeight_le {k : BlockKind} (hk : k.isFramed = true) (heights : List Nat) :
    frameHeight ≤ k.height heights := by
  cases k with
  | framed keyword label => exact Nat.le_add_right ..
  | alternative condition => exact Nat.le_add_right ..
  | _ => simp [isFramed] at hk

end BlockKind

/-- An element of the body of a diagram. -/
inductive Element where
  | signal (signal : Signal)
  | note (note : Note)
  | separator (condition : String)
  | block (kind : BlockKind) (children : List Element)

/-- The child indices that lead from a block to an element in it. -/
abbrev Path := List Nat

namespace Element

mutual

/-- The room an element takes. -/
def height : Element → Nat
  | signal s => s.height
  | note n => n.height
  | separator _ => separatorHeight
  | block k children => k.height (heights children)

/-- The rooms that several elements take. -/
def heights : List Element → List Nat
  | [] => []
  | e :: es => e.height :: heights es

end

@[simp] theorem heights_eq_map (es : List Element) : heights es = es.map height := by
  induction es with
  | nil => rfl
  | cons e es ih => simp [heights, ih]

theorem height_block (k : BlockKind) (children : List Element) :
    (block k children).height = k.height (children.map height) := by
  rw [height, heights_eq_map]

/-- The participants that an element itself is about, as it names them. -/
def participants : Element → List String
  | signal s => [s.source, s.target]
  | note n => [n.participant]
  | separator _ | block .. => []

/-- The kind of an element that is a block. -/
def kind? : Element → Option BlockKind
  | block k _ => some k
  | _ => none

/-- The elements that a block holds. -/
def children : Element → List Element
  | block _ children => children
  | _ => []

/-- The element at a path. -/
def get? : Element → Path → Option Element
  | e, [] => some e
  | block _ children, i :: p => children[i]?.bind fun c => c.get? p
  | _, _ :: _ => none

/-- The tree with a new element at the end of the block at a path; if there is no block, the tree
is left as it is. -/
def append : Element → Path → Element → Element
  | block k children, [], new => block k (children ++ [new])
  | block k children, i :: p, new => block k (children.modify i fun c => c.append p new)
  | e, _, _ => e

@[simp] theorem get?_nil (e : Element) : e.get? [] = some e := by
  cases e <;> rfl

@[simp] theorem get?_block_cons (k : BlockKind) (children : List Element) (i : Nat) (p : Path) :
    (block k children).get? (i :: p) = children[i]?.bind fun c => c.get? p := rfl

@[simp] theorem append_block_nil (k : BlockKind) (children : List Element) (new : Element) :
    (block k children).append [] new = block k (children ++ [new]) := rfl

@[simp] theorem append_block_cons (k : BlockKind) (children : List Element) (i : Nat) (p : Path)
    (new : Element) : (block k children).append (i :: p) new =
      block k (children.modify i fun c => c.append p new) := rfl

/-- An added element stands at the end of its block. -/
theorem get?_append_self {e : Element} {p : Path} {k : BlockKind} {children : List Element}
    (h : e.get? p = some (block k children)) (new : Element) :
    (e.append p new).get? p = some (block k (children ++ [new])) := by
  induction p generalizing e with
  | nil =>
    obtain rfl : e = block k children := by simpa using h
    simp
  | cons i p ih =>
    cases e with
    | block k' es =>
      obtain ⟨c, hc, hp⟩ := Option.bind_eq_some_iff.1 h
      simp [hc, ih hp]
    | _ => simp [get?] at h

end Element

end SequenceDiagram
