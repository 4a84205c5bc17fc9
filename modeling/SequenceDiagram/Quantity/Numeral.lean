import SequenceDiagram.Quantity.Figure
import SequenceDiagram.Quantity.Shortest

/-!
# Numerals

How a quantity is written. A whole number is written by its digits; a decimal always shows a
point or an exponent, and ends as soon as its value is fixed: `75.0`, `62.5`, `-0.25`, `1e+19`.
Some quantities cannot be written, because they cannot be worked out or have too many digits.

## Main definitions

* `Figure.numeral`: the written form of a figure
* `Quantity.numeral`: the written form of a quantity
* `Quantity.reckoningFault?`, `Quantity.writingFault?`: why a quantity cannot be written
-/

namespace SequenceDiagram

namespace Decimal

/-- A natural number in at least `width` digits, with zeros before it. -/
def paddedDigits (width n : Nat) : String :=
  let digits := Nat.repr n
  String.ofList (List.replicate (width - digits.length) '0') ++ digits

/-- Digits with the point after the first one, and the power of ten of the first one. -/
def scientific (d : Decimal) : String :=
  let digits := (Nat.repr d.digits).toList
  let fraction := if digits.length ≤ 1 then "" else "." ++ String.ofList (digits.drop 1)
  String.ofList (digits.take 1) ++ fraction ++ "e+" ++
    paddedDigits 2 (digits.length + d.place - 3)

/-- All digits with the point at its place, and at least one digit after it. -/
def positional (d : Decimal) : String :=
  match d.place with
  | 0 => Nat.repr (d.digits / 100) ++ "." ++ paddedDigits 2 (d.digits % 100)
  | 1 => Nat.repr (d.digits / 10) ++ "." ++ Nat.repr (d.digits % 10)
  | n + 2 => Nat.repr (d.digits * Nat.pow 10 n) ++ ".0"

/-- Up to sixteen digits stand before the point; a larger number has an exponent. -/
def numeral (d : Decimal) : String :=
  if (Nat.repr d.digits).length + d.place ≤ 18 then d.positional else d.scientific

end Decimal

namespace Figure

/-- Below this many quarters a decimal is written exactly. -/
def exactBound : Nat := Nat.pow 2 51

/-- The exact written form of a count of quarters. -/
def quarterNumeral (quarters : Nat) : String :=
  Nat.repr (quarters / 4) ++
    match quarters % 4 with
    | 0 => ".0"
    | 1 => ".25"
    | 2 => ".5"
    | _ => ".75"

/-- The written form of a figure. -/
def numeral : Figure → String
  | whole n => toString n
  | decimal q =>
    let size := q.natAbs
    let sign := if q < 0 then "-" else ""
    sign ++ if size < exactBound then quarterNumeral size else (Decimal.shortest (2 * size)).numeral

example : (decimal 250).numeral = "62.5" ∧ (decimal 300).numeral = "75.0" ∧
    (whole 5).numeral = "5" ∧ (decimal (-1)).numeral = "-0.25" := by decide +kernel

example : (decimal (4 * 10 ^ 19)).numeral = "1e+19" := by decide +kernel

end Figure

namespace Quantity

/-- The written form of a quantity; it is empty if the quantity cannot be worked out. -/
def numeral (x : Quantity) : String :=
  match x.figure with
  | .ok f => f.numeral
  | .error _ => ""

/-- Why a quantity cannot be worked out. -/
def reckoningFault? (x : Quantity) : Option Fault :=
  match x.figure with
  | .ok _ => none
  | .error f => some f

/-- Why a quantity that is worked out cannot be written. -/
def writingFault? (x : Quantity) : Option Fault :=
  match x.figure with
  | .ok (.whole n) => if digitLimit < digitCount n then some .longNumber else none
  | _ => none

@[simp] theorem numeral_whole (n : Int) : (whole n).numeral = toString n := rfl

@[simp] theorem reckoningFault?_whole (n : Int) : (whole n).reckoningFault? = none := rfl

end Quantity

end SequenceDiagram
