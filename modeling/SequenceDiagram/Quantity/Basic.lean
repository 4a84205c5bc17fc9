/-!
# Quantities

Coordinates and lengths of a drawing. A quantity is a whole number or a decimal; the two kinds are
kept apart because they are written differently, `75` and `75.0`. Sums and differences of whole
numbers are whole, and a decimal operand makes the result decimal.

Where decimals take part, a quantity remembers how it arose: its exact value is one reading of it,
and the figure that is written, which is rounded after every step, is another one.

## Main definitions

* `Quantity`: whole numbers, decimals, and what is made of them
* `Quantity.toQuarters`: the exact value, in quarters
* `Quantity.clamp`: the larger of a quantity and zero

## Main results

* `Quantity.toQuarters_add`, `Quantity.toQuarters_sub`: the exact value of sums and differences
* `Quantity.toQuarters_clamp`: clamping is the maximum with zero
-/

namespace SequenceDiagram

/-- A coordinate or a length of a drawing. -/
inductive Quantity where
  /-- A whole number. -/
  | whole (n : Int)
  /-- A decimal number, counted in quarters. -/
  | decimal (quarters : Int)
  /-- Half of a whole number, which is decimal also when it is integral. -/
  | half (n : Int)
  /-- A sum with a decimal term. -/
  | sum (x y : Quantity)
  /-- A difference with a decimal term. -/
  | difference (x y : Quantity)
deriving DecidableEq, Inhabited

namespace Quantity

/-- The exact value, in quarters. -/
def toQuarters : Quantity → Int
  | whole n => 4 * n
  | decimal q => q
  | half n => 2 * n
  | sum x y => x.toQuarters + y.toQuarters
  | difference x y => x.toQuarters - y.toQuarters

@[simp] theorem toQuarters_whole (n : Int) : (whole n).toQuarters = 4 * n := rfl

@[simp] theorem toQuarters_decimal (q : Int) : (decimal q).toQuarters = q := rfl

@[simp] theorem toQuarters_half (n : Int) : (half n).toQuarters = 2 * n := rfl

instance : Coe Int Quantity := ⟨whole⟩

instance (n : Nat) : OfNat Quantity n := ⟨whole n⟩

/-- A natural number as a quantity. -/
def units (n : Nat) : Quantity := whole n

/-- A sum is whole when both terms are. -/
def add : Quantity → Quantity → Quantity
  | whole m, whole n => whole (m + n)
  | x, y => sum x y

/-- A difference is whole when both terms are. -/
def sub : Quantity → Quantity → Quantity
  | whole m, whole n => whole (m - n)
  | x, y => difference x y

instance : Add Quantity := ⟨add⟩

instance : Sub Quantity := ⟨sub⟩

/-- The larger of a quantity and zero; a quantity that is not negative is kept as it is. -/
def clamp (x : Quantity) : Quantity := if x.toQuarters < 0 then 0 else x

@[simp] theorem whole_add_whole (m n : Int) : whole m + whole n = whole (m + n) := rfl

@[simp] theorem whole_sub_whole (m n : Int) : whole m - whole n = whole (m - n) := rfl

@[simp] theorem toQuarters_ofNat (n : Nat) :
    toQuarters (OfNat.ofNat n) = 4 * (n : Int) := rfl

@[simp] theorem toQuarters_zero : (0 : Quantity).toQuarters = 0 := rfl

@[simp] theorem toQuarters_units (n : Nat) : (units n).toQuarters = 4 * (n : Int) := rfl

@[simp] theorem toQuarters_add (x y : Quantity) :
    (x + y).toQuarters = x.toQuarters + y.toQuarters := by
  change (add x y).toQuarters = _
  unfold add
  split
  · exact Int.mul_add ..
  · rfl

@[simp] theorem toQuarters_sub (x y : Quantity) :
    (x - y).toQuarters = x.toQuarters - y.toQuarters := by
  change (sub x y).toQuarters = _
  unfold sub
  split
  · exact Int.mul_sub ..
  · rfl

theorem toQuarters_clamp (x : Quantity) : x.clamp.toQuarters = max x.toQuarters 0 := by
  unfold clamp
  split
  · rw [toQuarters_zero]
    omega
  · omega

end Quantity

end SequenceDiagram
