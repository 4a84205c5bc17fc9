import SequenceDiagram.Diagram.Reading

/-!
# The open blocks of a diagram

A diagram that is read line by line grows at its end only: every open block is the last element
of the block around it. So the tree and the path of the open block are those of a row of blocks,
each with the elements that it has so far, and the row says more directly than a path into a tree
what adding, opening and closing do.

## Main definitions

* `OpenBlock`, `Scope`: an open block; the innermost one with those around it
* `Element.within`, `pathTo`: an element at the end of open blocks, and the path to it
* `Scope.add`, `Scope.enter`, `Scope.leave`: what happens to the open blocks
* `Diagram.HasScope`: a diagram whose tree ends in the given open blocks
* `Diagram.openKinds`: the kinds of the blocks that are open inside the outermost one

## Main results

* `HasScope.add`, `HasScope.openBlock`, `HasScope.closeBlock`: the operations of a diagram are
  those of its open blocks
* `HasScope.openKinds_eq`: the open kinds are those of the open blocks
-/

namespace SequenceDiagram

/-- A block that is open, with the elements that are complete in it. -/
structure OpenBlock where
  kind : BlockKind
  elements : List Element

namespace OpenBlock

/-- The block as an element. -/
def element (b : OpenBlock) : Element := .block b.kind b.elements

/-- The block with one more element at its end. -/
def add (b : OpenBlock) (e : Element) : OpenBlock := { b with elements := b.elements ++ [e] }

@[simp] theorem kind_add (b : OpenBlock) (e : Element) : (b.add e).kind = b.kind := rfl

@[simp] theorem elements_add (b : OpenBlock) (e : Element) :
    (b.add e).elements = b.elements ++ [e] := rfl

end OpenBlock

/-! ## An element at the end of open blocks -/

namespace Element

/-- The tree of an element at the end of open blocks, the innermost of which comes first. -/
def within : Element → List OpenBlock → Element
  | e, [] => e
  | e, b :: bs => (b.add e).element.within bs

@[simp] theorem within_nil (e : Element) : e.within [] = e := rfl

@[simp] theorem within_cons (e : Element) (b : OpenBlock) (bs : List OpenBlock) :
    e.within (b :: bs) = (b.add e).element.within bs := rfl

/-- The kinds of the blocks that a path enters, from the outside in. -/
def kindsAlong : Element → Path → List BlockKind
  | block _ children, i :: p =>
    (children[i]?).elim [] fun c => c.kind?.toList ++ c.kindsAlong p
  | _, _ => []

@[simp] theorem kindsAlong_nil (e : Element) : e.kindsAlong [] = [] := by
  cases e <;> rfl

@[simp] theorem kind?_element (b : OpenBlock) : b.element.kind? = some b.kind := rfl

end Element

/-- The path to an element at the end of open blocks. -/
def pathTo (bs : List OpenBlock) : Path := (bs.map fun b => b.elements.length).reverse

@[simp] theorem pathTo_nil : pathTo [] = [] := rfl

theorem pathTo_cons (b : OpenBlock) (bs : List OpenBlock) :
    pathTo (b :: bs) = pathTo bs ++ [b.elements.length] := by
  simp [pathTo]

theorem pathTo_eq_nil_iff {bs : List OpenBlock} : pathTo bs = [] ↔ bs = [] := by
  simp [pathTo]

namespace Element

theorem get?_within (e : Element) (bs : List OpenBlock) (q : Path) :
    (e.within bs).get? (pathTo bs ++ q) = e.get? q := by
  -- From the inside out: the block around `e` is itself an element at the end of the others.
  induction bs generalizing e q with
  | nil => rfl
  | cons b bs ih =>
    rw [pathTo_cons, List.append_assoc, within_cons, ih]
    simp [OpenBlock.element, OpenBlock.add]

theorem append_within (e : Element) (bs : List OpenBlock) (q : Path) (new : Element) :
    (e.within bs).append (pathTo bs ++ q) new = (e.append q new).within bs := by
  induction bs generalizing e q with
  | nil => rfl
  | cons b bs ih =>
    -- The path passes the complete elements of the block and changes the one behind them.
    have hm : (b.elements ++ [e]).modify b.elements.length (fun c => c.append q new) =
        b.elements ++ [e.append q new] := by
      rw [List.modify_eq_take_cons_drop (by simp)]
      simp
    rw [pathTo_cons, List.append_assoc, within_cons, ih]
    simp [OpenBlock.element, OpenBlock.add, hm]

theorem kindsAlong_within {e : Element} {k : BlockKind} (hk : e.kind? = some k)
    (bs : List OpenBlock) (q : Path) :
    (e.within bs).kindsAlong (pathTo bs ++ q) =
      (bs.reverse.map OpenBlock.kind ++ k :: e.kindsAlong q).tail := by
  -- The outermost block is where the path begins, so it is not entered and its kind is left out.
  induction bs generalizing e q k with
  | nil => rfl
  | cons b bs ih =>
    rw [pathTo_cons, List.append_assoc, within_cons, ih (k := b.kind) rfl]
    simp [OpenBlock.element, OpenBlock.add, kindsAlong, hk]

end Element

/-! ## Diagrams and their open blocks -/

/-- The blocks that are open: the innermost one and those around it, from the inside out. -/
structure Scope where
  inner : OpenBlock
  outer : List OpenBlock

namespace Scope

/-- The scope of a diagram in which nothing has been said. -/
def outermost : Scope := ⟨⟨.sequence, []⟩, []⟩

/-- All open blocks, from the inside out. -/
def blocks (s : Scope) : List OpenBlock := s.inner :: s.outer

/-- The tree of a scope. -/
def tree (s : Scope) : Element := s.inner.element.within s.outer

/-- The path of the innermost block. -/
def path (s : Scope) : Path := pathTo s.outer

/-- The scope with an element at the end of its innermost block. -/
def add (s : Scope) (e : Element) : Scope := { s with inner := s.inner.add e }

/-- The scope with a new block open in its innermost one. -/
def enter (s : Scope) (k : BlockKind) : Scope := ⟨⟨k, []⟩, s.blocks⟩

/-- The scope after its innermost block is closed; the outermost block stays open. -/
def leave (s : Scope) : Scope :=
  match s.outer with
  | [] => s
  | b :: bs => ⟨b.add s.inner.element, bs⟩

@[simp] theorem outer_add (s : Scope) (e : Element) : (s.add e).outer = s.outer := rfl

@[simp] theorem kind_inner_add (s : Scope) (e : Element) :
    (s.add e).inner.kind = s.inner.kind := rfl

@[simp] theorem path_add (s : Scope) (e : Element) : (s.add e).path = s.path := rfl

theorem get?_tree (s : Scope) : s.tree.get? s.path = some s.inner.element := by
  simpa [tree, path] using s.inner.element.get?_within s.outer []

theorem append_tree (s : Scope) (e : Element) : s.tree.append s.path e = (s.add e).tree := by
  simpa [tree, path, OpenBlock.element, add, OpenBlock.add] using
    s.inner.element.append_within s.outer [] e

theorem path_eq_nil_iff {s : Scope} : s.path = [] ↔ s.outer = [] := pathTo_eq_nil_iff

/-- An opened block stands at the end of the tree, still empty. -/
theorem tree_enter (s : Scope) (k : BlockKind) : (s.enter k).tree = (s.add (.block k [])).tree :=
  rfl

theorem path_enter (s : Scope) (k : BlockKind) :
    (s.enter k).path = s.path ++ [s.inner.elements.length] := pathTo_cons ..

/-- Closing a block leaves the tree as it is and shortens the path. -/
theorem tree_leave (s : Scope) : s.leave.tree = s.tree := by
  unfold leave
  cases h : s.outer <;> simp [tree, h]

theorem path_leave (s : Scope) : s.leave.path = s.path.dropLast := by
  unfold leave
  cases h : s.outer with
  | nil => simp [path, h]
  | cons b bs => simp [path, h, pathTo_cons]

end Scope

namespace Diagram

/-- The kinds of the blocks that are open inside the outermost one, from the inside out. -/
def openKinds (d : Diagram) : List BlockKind := (d.root.kindsAlong d.active).reverse

/-- A diagram whose tree ends in the blocks of a scope, the innermost of which is the open one. -/
structure HasScope (d : Diagram) (s : Scope) : Prop where
  root_eq : d.root = s.tree
  active_eq : d.active = s.path

theorem hasScope_empty : empty.HasScope .outermost := ⟨rfl, rfl⟩

namespace HasScope

variable {d : Diagram} {s : Scope}

theorem element?_active (h : d.HasScope s) : d.element? d.active = some s.inner.element := by
  rw [element?, h.root_eq, h.active_eq, s.get?_tree]

theorem activeKind_eq (h : d.HasScope s) : d.activeKind = s.inner.kind := by
  simp [activeKind, h.element?_active]

theorem active_eq_nil_iff (h : d.HasScope s) : d.active = [] ↔ s.outer = [] := by
  rw [h.active_eq, Scope.path_eq_nil_iff]

theorem openKinds_eq (h : d.HasScope s) :
    d.openKinds = (s.blocks.map OpenBlock.kind).dropLast := by
  have hk := Element.kindsAlong_within (Element.kind?_element s.inner) s.outer []
  rw [List.append_nil, Element.kindsAlong_nil] at hk
  calc d.openKinds
      = (s.outer.reverse.map OpenBlock.kind ++ [s.inner.kind]).tail.reverse := by
        rw [openKinds, h.root_eq, h.active_eq, ← hk]
        rfl
    _ = (s.blocks.map OpenBlock.kind).reverse.tail.reverse := by simp [Scope.blocks]
    _ = (s.blocks.map OpenBlock.kind).dropLast := by
        rw [List.tail_reverse, List.reverse_reverse]

theorem openKinds_eq_nil_iff (h : d.HasScope s) : d.openKinds = [] ↔ d.active = [] := by
  rw [h.openKinds_eq, h.active_eq_nil_iff, Scope.blocks]
  cases s.outer <;> simp

/-- The outermost block is a sequence, so a block of another kind is inside it. -/
theorem outer_ne_nil (h : d.HasScope s) (hk : s.inner.kind ≠ .sequence) : s.outer ≠ [] := by
  intro ho
  -- Without blocks around it the innermost block would be the outermost one.
  have hr : d.root = s.inner.element := by
    rw [h.root_eq, Scope.tree, ho, Element.within_nil]
  exact hk (Option.some.inj (congrArg Element.kind? hr)).symm

protected theorem add (h : d.HasScope s) (e : Element) : (d.add e).HasScope (s.add e) := by
  constructor
  · rw [Diagram.add, root_addAt, h.root_eq, h.active_eq, s.append_tree]
  · exact h.active_eq

protected theorem openBlock (h : d.HasScope s) (k : BlockKind) :
    (d.openBlock k).HasScope (s.enter k) := by
  constructor
  · rw [Scope.tree_enter, ← (h.add (.block k [])).root_eq]
    rfl
  · -- The new block comes after all elements of the open one.
    rw [Scope.path_enter, openBlock, h.active_eq, childrenAt, ← h.active_eq, h.element?_active]
    rfl

protected theorem closeBlock (h : d.HasScope s) (ho : s.outer ≠ []) :
    ∃ d', d.closeBlock = .ok d' ∧ d' = { d with active := d.active.dropLast } ∧
      d'.HasScope s.leave := by
  have ha : d.active ≠ [] := mt h.active_eq_nil_iff.1 ho
  refine ⟨{ d with active := d.active.dropLast }, if_neg ha, rfl, ?_, ?_⟩
  · rw [s.tree_leave, ← h.root_eq]
    rfl
  · rw [s.path_leave, ← h.active_eq]

/-- Only the tree and the path of a diagram decide which blocks are open. -/
theorem congr {d' : Diagram} (h : d.HasScope s) (hb : d'.body = d.body)
    (ha : d'.active = d.active) : d'.HasScope s := by
  constructor
  · rw [root, hb]
    exact h.root_eq
  · rw [ha]
    exact h.active_eq

end HasScope

end Diagram

end SequenceDiagram
