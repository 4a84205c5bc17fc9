/-!
# Rounding

Numbers are rounded to the nearest multiple of a unit, and to 53 binary digits. Of two multiples
that are equally near, the even one is taken.

## Main definitions

* `nearest`: the multiple of a unit nearest to a number
* `binaryQuotient`: a quotient in 53 binary digits
* `binary`: an integer in 53 binary digits

## Main results

* `nearest_mul_le`, `le_nearest_mul`: the nearest multiple is at most half a unit away
* `binary_of_natAbs_lt`: an integer of at most 53 binary digits is left as it is
-/

namespace SequenceDiagram

/-- How often `unit` goes into `n`, rounded to the nearest, a tie going to the even count. -/
def nearest (n unit : Nat) : Nat :=
  if 2 * (n % unit) < unit ∨ (2 * (n % unit) = unit ∧ n / unit % 2 = 0) then n / unit
  else n / unit + 1

theorem nearest_mul_le (n unit : Nat) : 2 * (nearest n unit * unit) ≤ 2 * n + unit := by
  have h := Nat.div_add_mod' n unit
  simp only [nearest]
  split <;> grind

theorem le_nearest_mul (n unit : Nat) (hu : 0 < unit) :
    2 * n ≤ 2 * (nearest n unit * unit) + unit := by
  have h := Nat.div_add_mod' n unit
  have hlt := Nat.mod_lt n hu
  simp only [nearest]
  split <;> grind

@[simp] theorem nearest_one (n : Nat) : nearest n 1 = n := by
  simp [nearest, Nat.mod_one]

/-- The place of the last of 53 binary digits of a number. -/
def lastPlace (n : Nat) : Nat := Nat.pow 2 (n.log2 - 52)

/-- The quotient of two numbers, rounded to an integer of at most 53 binary digits before the
zeros at its end. -/
def binaryQuotient (n d : Nat) : Nat :=
  nearest n (d * lastPlace (n / d)) * lastPlace (n / d)

/-- An integer, rounded to at most 53 binary digits before the zeros at its end. -/
def binary (n : Int) : Int := n.sign * binaryQuotient n.natAbs 1

/-- The least number that has more than 53 binary digits. -/
def binaryBound : Nat := Nat.pow 2 53

theorem lastPlace_of_lt {n : Nat} (h : n < binaryBound) : lastPlace n = 1 := by
  have hlog : n.log2 - 52 = 0 := by
    by_cases h0 : n = 0
    · simp [h0]
    · have := (Nat.log2_lt h0).2 h
      omega
  rw [lastPlace, hlog]

theorem binaryQuotient_one_of_lt {n : Nat} (h : n < binaryBound) : binaryQuotient n 1 = n := by
  simp [binaryQuotient, lastPlace_of_lt h]

@[simp] theorem binary_zero : binary 0 = 0 := rfl

/-- An integer of at most 53 binary digits is left as it is. -/
theorem binary_of_natAbs_lt {n : Int} (h : n.natAbs < binaryBound) : binary n = n := by
  rw [binary, binaryQuotient_one_of_lt h]
  exact Int.sign_mul_natAbs n

end SequenceDiagram
