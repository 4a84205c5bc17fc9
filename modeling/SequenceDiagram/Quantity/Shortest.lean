import SequenceDiagram.Quantity.Rounding

/-!
# Shortest decimals

A decimal beyond the range where every quarter has a short exact form is written with the fewest
digits that single it out among the numbers of 53 binary digits. A number is handled in eighths,
where the range in question starts at `2 ^ 52`, and the grids of multiples of a power of ten are
searched from the coarsest to the finest.

## Main definitions

* `Decimal`: digits and the place of the last one
* `Decimal.shortest`: the fewest digits that single out a binary number
-/

namespace SequenceDiagram

/-- The number `digits * 10 ^ (place - 2)`: hundredths have place `0`, ones have place `2`. -/
structure Decimal where
  digits : Nat
  place : Nat
deriving DecidableEq

namespace Decimal

/-- The numbers that are rounded to one binary number, in eight-hundredths of one. -/
structure Interval where
  centre : Nat
  below : Nat
  above : Nat
  closed : Bool

/-- The interval of a number of 53 binary digits: it reaches half of the way to the neighbours,
which are nearer below a power of two, and its ends belong to it if the last digit is even. -/
def Interval.around (eighths : Nat) : Interval :=
  let gap := lastPlace eighths
  { centre := 100 * eighths
    below := if eighths = Nat.pow 2 eighths.log2 then 25 * gap else 50 * gap
    above := 50 * gap
    closed := eighths / gap % 2 = 0 }

/-- Membership of an interval, whose ends belong to it or not. -/
def Interval.holds (i : Interval) (x : Nat) : Bool :=
  if i.closed then i.centre ≤ x + i.below && x ≤ i.centre + i.above
  else i.centre < x + i.below && x < i.centre + i.above

/-- The grid point of the interval at a place: the nearer neighbour of the centre if it lies in
the interval, else the other one. -/
def Interval.point? (i : Interval) (place : Nat) : Option Decimal :=
  let unit := 8 * Nat.pow 10 place
  let low := i.centre / unit
  let near := nearest i.centre unit
  let far := if near = low then low + 1 else low
  if i.holds (near * unit) then some ⟨near, place⟩
  else if i.holds (far * unit) then some ⟨far, place⟩
  else none

/-- The fewest digits that single out a number of 53 binary digits. -/
def shortest (eighths : Nat) : Decimal :=
  let i := Interval.around eighths
  let places := (List.range (i.centre.log2 + 1)).reverse
  (places.findSome? i.point?).getD ⟨i.centre / 8, 0⟩

example : shortest (8 * 10 ^ 19) = ⟨1, 21⟩ := by decide +kernel

example : shortest (8 * (4 * 10 ^ 15) + 4) = ⟨40000000000000005, 1⟩ := by decide +kernel

end Decimal

end SequenceDiagram
