import SequenceDiagram.Quantity.Numeral

/-!
# The characters of numerals

A numeral consists of digits, signs, points and the letter of an exponent, whatever quantity it is
written for.

## Main definitions

* `Numeric`: texts of the characters of numerals

## Main results

* `Quantity.numeric_numeral`: every quantity is written in them
-/

namespace SequenceDiagram

/-- A text of characters that numerals are made of. -/
def Numeric (s : String) : Prop :=
  ∀ c ∈ s.toList, c.isDigit = true ∨ c ∈ ['-', '+', '.', 'e']

instance : DecidablePred Numeric := fun s =>
  decidable_of_iff ((s.toList.all fun c => c.isDigit || ['-', '+', '.', 'e'].contains c) = true)
    (by simp [Numeric])

namespace Numeric

@[simp] theorem append_iff {s t : String} : Numeric (s ++ t) ↔ Numeric s ∧ Numeric t := by
  simp [Numeric, or_imp, forall_and]

/-- Some characters of a numeral. -/
theorem ofList {s : String} (h : Numeric s) {cs : List Char} (hc : cs ⊆ s.toList) :
    Numeric (String.ofList cs) := by
  intro c hc'
  rw [String.toList_ofList] at hc'
  exact h c (hc hc')

@[simp] theorem repr (n : Nat) : Numeric n.repr := by
  intro c hc
  rw [Nat.repr_eq_ofList_toDigits, String.toList_ofList] at hc
  exact .inl (Nat.isDigit_of_mem_toDigits (by decide) (by decide) hc)

@[simp] theorem paddedDigits (width n : Nat) : Numeric (Decimal.paddedDigits width n) := by
  refine append_iff.2 ⟨?_, repr n⟩
  intro c hc
  rw [String.toList_ofList] at hc
  rw [List.eq_of_mem_replicate hc]
  exact .inl (by decide)

theorem quarterNumeral (q : Nat) : Numeric (Figure.quarterNumeral q) := by
  refine append_iff.2 ⟨repr _, ?_⟩
  split <;> decide

theorem scientific (d : Decimal) : Numeric d.scientific := by
  simp only [Decimal.scientific, append_iff]
  refine ⟨⟨⟨?_, ?_⟩, by decide⟩, paddedDigits _ _⟩
  · exact (repr d.digits).ofList (List.take_subset ..)
  · split
    · decide
    · exact append_iff.2 ⟨by decide, (repr d.digits).ofList (List.drop_subset ..)⟩

theorem positional (d : Decimal) : Numeric d.positional := by
  have hpoint : Numeric "." := by decide
  have hzero : Numeric ".0" := by decide
  unfold Decimal.positional
  split <;> simp [hpoint, hzero]

theorem figure (f : Figure) : Numeric f.numeral := by
  cases f with
  | whole n =>
    cases n with
    | ofNat n => exact repr n
    | negSucc n => exact append_iff.2 ⟨by decide, repr (n + 1)⟩
  | decimal q =>
    simp only [Figure.numeral, append_iff]
    constructor
    · split <;> decide
    · split
      · exact quarterNumeral _
      · unfold Decimal.numeral
        split
        · exact positional _
        · exact scientific _

end Numeric

/-- **Every quantity is written in the characters of numerals.** -/
theorem Quantity.numeric_numeral (x : Quantity) : Numeric x.numeral := by
  unfold numeral
  split
  · exact .figure _
  · decide

end SequenceDiagram
