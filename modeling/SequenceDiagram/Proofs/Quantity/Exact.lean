import SequenceDiagram.Quantity.Figure

/-!
# Quantities that are not rounded

A quantity comes to its exact value as long as nothing on the way is rounded. That is so for whole
numbers of any size, and for sums and differences with decimals below the least number that has
more than 53 binary digits.

## Main definitions

* `Figure.toQuarters`: the value of a figure, in quarters
* `Quantity.IsExact`: a quantity comes to its exact value

## Main results

* `Quantity.IsExact.add_units`, `Quantity.IsExact.sub_units`: natural numbers added and subtracted
-/

namespace SequenceDiagram

/-- The value of a figure, in quarters. -/
def Figure.toQuarters : Figure → Int
  | whole n => 4 * n
  | decimal q => q

/-- A figure of few binary digits is not rounded as an operand. -/
theorem Figure.operand_of_lt {f : Figure} (h : f.toQuarters.natAbs < binaryBound) :
    f.operand = .ok f.toQuarters := by
  cases f with
  | whole n => exact Quantity.nearestDecimal_of_lt h _
  | decimal q => rfl

namespace Quantity

/-- A quantity comes to its exact value. -/
def IsExact (x : Quantity) : Prop := ∃ f, x.figure = .ok f ∧ f.toQuarters = x.toQuarters

theorem isExact_whole (n : Int) : (whole n).IsExact := ⟨.whole n, rfl, rfl⟩

theorem isExact_decimal {q : Int} (h : q.natAbs < binaryBound) : (decimal q).IsExact :=
  ⟨.decimal q, figure_decimal_of_lt h, rfl⟩

theorem isExact_sum {x y : Quantity} (hx : x.IsExact) (hy : y.IsExact)
    (hxb : x.toQuarters.natAbs < binaryBound) (hyb : y.toQuarters.natAbs < binaryBound)
    (h : (x.toQuarters + y.toQuarters).natAbs < binaryBound) : (sum x y).IsExact := by
  obtain ⟨f, hf, hfq⟩ := hx
  obtain ⟨g, hg, hgq⟩ := hy
  refine ⟨.decimal (x.toQuarters + y.toQuarters), ?_, rfl⟩
  rw [← hfq] at hxb
  rw [← hgq] at hyb
  rw [figure, hf, hg]
  simp only [bind, Except.bind, Figure.operand_of_lt hxb, Figure.operand_of_lt hyb, hfq, hgq,
    binary_of_natAbs_lt h, pure, Except.pure]

theorem isExact_difference {x y : Quantity} (hx : x.IsExact) (hy : y.IsExact)
    (hxb : x.toQuarters.natAbs < binaryBound) (hyb : y.toQuarters.natAbs < binaryBound)
    (h : (x.toQuarters - y.toQuarters).natAbs < binaryBound) : (difference x y).IsExact := by
  obtain ⟨f, hf, hfq⟩ := hx
  obtain ⟨g, hg, hgq⟩ := hy
  refine ⟨.decimal (x.toQuarters - y.toQuarters), ?_, rfl⟩
  rw [← hfq] at hxb
  rw [← hgq] at hyb
  rw [figure, hf, hg]
  simp only [bind, Except.bind, Figure.operand_of_lt hxb, Figure.operand_of_lt hyb, hfq, hgq,
    binary_of_natAbs_lt h, pure, Except.pure]

namespace IsExact

variable {x : Quantity} {n : Nat}

theorem add_units (hx : x.IsExact) (h : x.toQuarters.natAbs + 4 * n < binaryBound) :
    (x + units n).IsExact := by
  have hn : (units n).toQuarters = 4 * (n : Int) := toQuarters_units n
  cases x with
  | whole m => exact isExact_whole (m + n)
  | _ => exact isExact_sum hx (isExact_whole n) (by omega) (by omega) (by omega)

theorem sub_units (hx : x.IsExact) (hxb : x.toQuarters.natAbs < binaryBound)
    (hn : 4 * n < binaryBound) (h : (x - units n).toQuarters.natAbs < binaryBound) :
    (x - units n).IsExact := by
  rw [toQuarters_sub] at h
  have hu : (units n).toQuarters = 4 * (n : Int) := toQuarters_units n
  cases x with
  | whole m => exact isExact_whole (m - n)
  | _ => exact isExact_difference hx (isExact_whole n) hxb (by omega) h

end IsExact

end Quantity

end SequenceDiagram
