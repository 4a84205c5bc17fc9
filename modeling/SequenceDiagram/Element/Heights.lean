import SequenceDiagram.Element.Basic

/-!
# Remembered heights

The height of a block is computed once and remembered under its path until an element is added
to the block or to one inside it.

## Main definitions

* `Heights`: the remembered heights of the blocks of a tree
* `Heights.read`: the height of an element, from memory if it is there
* `Heights.measure`: the height of an element and the memory after computing it
* `Heights.forget`: the memory after a change at a path

## Main results

* `Heights.lookup_forget`: a change at a path is felt by the blocks that enclose it only
-/

namespace SequenceDiagram

/-- The remembered heights of blocks, each under its path. -/
abbrev Heights := List (Path × Nat)

namespace Heights

/-- The height of the element at a path, from memory if it is there. -/
def read (m : Heights) (p : Path) (e : Element) : Nat := (m.lookup p).getD e.height

/-- The memory after a change of the block at a path: no block that is or encloses it is
remembered. -/
def forget (m : Heights) (p : Path) : Heights := m.filter fun entry => ¬ entry.1 <+: p

mutual

/-- The height of the element at a path and the memory after computing it. -/
def measure (m : Heights) (p : Path) : Element → Nat × Heights
  | .block k children =>
    match m.lookup p with
    | some h => (h, m)
    | none =>
      let (heights, m) := measureAll m p 0 children
      (k.height heights, (p, k.height heights) :: m)
  | e => (e.height, m)

/-- The heights of the elements from index `i` on of the block at a path, and the memory after
computing them. -/
def measureAll (m : Heights) (p : Path) (i : Nat) : List Element → List Nat × Heights
  | [] => ([], m)
  | e :: es =>
    let (h, m) := measure m (p ++ [i]) e
    let (heights, m) := measureAll m p (i + 1) es
    (h :: heights, m)

end

@[simp] theorem read_nil (p : Path) (e : Element) : read [] p e = e.height := rfl

theorem lookup_forget (m : Heights) (p q : Path) :
    (m.forget p).lookup q = if q <+: p then none else m.lookup q := by
  induction m with
  | nil => simp [forget]
  | cons entry m ih =>
    obtain ⟨r, h⟩ := entry
    unfold forget at ih ⊢
    by_cases hr : r <+: p
    · rw [List.filter_cons_of_neg (by simp [hr]), ih, List.lookup_cons]
      by_cases hq : q = r
      · simp [hq, hr]
      · simp [beq_false_of_ne hq]
    · rw [List.filter_cons_of_pos (by simp [hr]), List.lookup_cons, List.lookup_cons, ih]
      by_cases hq : q = r
      · simp [hq, hr]
      · simp [beq_false_of_ne hq]

end Heights

end SequenceDiagram
