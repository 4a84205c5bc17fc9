import SequenceDiagram.Fault
import SequenceDiagram.Quantity.Basic
import SequenceDiagram.Quantity.Rounding

/-!
# Figures

What a quantity comes to when it is worked out for writing. Whole numbers are exact. Decimals have
53 binary digits: a whole operand of a sum with a decimal is rounded first, and every result is
rounded again. Whole numbers beyond the range of decimals cannot be worked out together with them.

## Main definitions

* `Figure`: whole numbers and decimals
* `Quantity.figure`: what a quantity comes to
* `Quantity.ofDecimal`: the quantity of a decimal numeral

## Main results

* `Quantity.figure_whole_add_half`: a sum of small terms comes to its exact value
-/

namespace SequenceDiagram

/-- What a quantity comes to. -/
inductive Figure where
  /-- A whole number. -/
  | whole (n : Int)
  /-- A decimal number, counted in quarters. -/
  | decimal (quarters : Int)
deriving DecidableEq

namespace Figure

/-- The least size, in quarters, that is out of the range of decimals. -/
def decimalBound : Nat := Nat.pow 2 1026

/-- The decimal nearest to a count of quarters, or a fault if it is out of range. -/
def nearestDecimal (outOfRange : Fault) (quarters : Int) : Except Fault Int :=
  if (binary quarters).natAbs < decimalBound then .ok (binary quarters) else .error outOfRange

/-- A figure as an operand beside a decimal, counted in quarters. -/
def operand : Figure → Except Fault Int
  | whole n => nearestDecimal .largeOperand (4 * n)
  | decimal q => .ok q

end Figure

namespace Quantity

open Figure

/-- What a quantity comes to. -/
def figure : Quantity → Except Fault Figure
  | whole n => .ok (.whole n)
  | decimal q => .ok (.decimal (binary q))
  | half n => (nearestDecimal .largeHalf (2 * n)).map .decimal
  | sum x y => do
    let a ← x.figure
    let b ← y.figure
    let p ← a.operand
    let q ← b.operand
    return .decimal (binary (p + q))
  | difference x y => do
    let a ← x.figure
    let b ← y.figure
    let p ← a.operand
    let q ← b.operand
    return .decimal (binary (p - q))

/-- The quantity of a decimal numeral, of which `places` digits stand after the point. -/
def ofDecimal (digits : Int) (places : Nat) : Quantity :=
  .decimal (digits.sign * binaryQuotient (4 * digits.natAbs) (Nat.pow 10 places))

attribute [local simp] figure

@[simp] theorem figure_whole (n : Int) : (whole n).figure = .ok (.whole n) := rfl

theorem figure_decimal_of_lt {q : Int} (h : q.natAbs < binaryBound) :
    (decimal q).figure = .ok (.decimal q) := by
  simp [binary_of_natAbs_lt h]

theorem binaryBound_le_decimalBound : binaryBound ≤ decimalBound := by decide +kernel

theorem nearestDecimal_of_lt {q : Int} (h : q.natAbs < binaryBound) (f : Fault) :
    nearestDecimal f q = .ok q := by
  have hb : q.natAbs < decimalBound := Nat.lt_of_lt_of_le h binaryBound_le_decimalBound
  rw [nearestDecimal, binary_of_natAbs_lt h, if_pos hb]

theorem figure_half_of_lt {n : Int} (h : (2 * n).natAbs < binaryBound) :
    (half n).figure = .ok (.decimal (2 * n)) := by
  rw [figure, nearestDecimal_of_lt h]
  rfl

/-- A sum of a small whole number and a small half comes to its exact value. -/
theorem figure_whole_add_half {m n : Int} (hm : (4 * m).natAbs < binaryBound)
    (hn : (2 * n).natAbs < binaryBound) (h : (4 * m + 2 * n).natAbs < binaryBound) :
    (whole m + half n).figure = .ok (.decimal (whole m + half n).toQuarters) := by
  change (sum (whole m) (half n)).figure = _
  simp [operand, nearestDecimal_of_lt hm, nearestDecimal_of_lt hn, binary_of_natAbs_lt h,
    bind, Except.bind, pure, Except.pure, Except.map]

end Quantity

end SequenceDiagram
