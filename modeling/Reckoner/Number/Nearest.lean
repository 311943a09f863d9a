namespace Reckoner

-- Powers of naturals mean the same whatever else is imported.
attribute [scoped instance(high)] instPowNat

namespace Number

/-- The least positive magnitude of the binary64 format is the unit, `1 / 2 ^ unitPlaces`, and so a
decimal with as many places. Every finite magnitude is a whole number of units. -/
def unitPlaces : Nat := 1074

/-- The bits of positive infinity. The numbers below it are the bits of the finite magnitudes, in
order of size. -/
def infinityBits : Nat := 0x7FF0000000000000

def units (bits : Nat) : Nat :=
  (if bits < 2 ^ (52 : Nat) then bits else 2 ^ (52 : Nat) + bits % 2 ^ (52 : Nat)) *
    2 ^ (bits / 2 ^ (52 : Nat) - 1)

/-- The whole number nearest to `num / den`; of two at the same distance, the even one. -/
def roundHalfEven (num den : Nat) : Nat :=
  let whole := num / den
  let twice := 2 * (num % den)
  if twice < den ∨ (twice = den ∧ whole % 2 = 0) then whole else whole + 1

/-- The bits of the magnitude nearest to `num / den`. The quotient is rounded once, to 53
significant bits or to whole units if that is coarser. A significand that rounds up to the next
power of two carries into the exponent, and what passes the largest finite magnitude is infinite. -/
def nearestBits (num den : Nat) : Nat :=
  let scaled := num * 2 ^ unitPlaces
  let shift := (scaled / den).log2 - 52
  min (roundHalfEven scaled (den * 2 ^ shift) + shift * 2 ^ (52 : Nat)) infinityBits

theorem nearestBits_le (num den : Nat) : nearestBits num den ≤ infinityBits :=
  Nat.min_le_right _ _

theorem roundHalfEven_mul (n : Nat) {den : Nat} (h : 0 < den) :
    roundHalfEven (n * den) den = n := by
  simp [roundHalfEven, Nat.mul_div_cancel n h, h]

/-- A quotient that is a finite magnitude is not changed by rounding. -/
theorem nearestBits_eq {num den bits : Nat} (hden : 0 < den) (hbits : bits < infinityBits)
    (h : num * 2 ^ unitPlaces = units bits * den) : nearestBits num den = bits := by
  have bound : infinityBits = 2047 * 2 ^ 52 := rfl
  unfold nearestBits
  simp only [h, Nat.mul_div_cancel _ hden]
  unfold units
  by_cases small : bits < 2 ^ 52
  · have exponent : bits / 2 ^ 52 - 1 = 0 := by omega
    have shift : bits.log2 - 52 = 0 := by
      by_cases zero : bits = 0
      · subst zero; rfl
      · have := (Nat.log2_lt zero).mpr small
        omega
    simp only [small, if_true, exponent, Nat.pow_zero, Nat.mul_one, shift,
      roundHalfEven_mul _ hden]
    omega
  · have positive : 2 ^ 52 + bits % 2 ^ 52 ≠ 0 := by omega
    have log : ((2 ^ 52 + bits % 2 ^ 52) * 2 ^ (bits / 2 ^ 52 - 1)).log2 =
        52 + (bits / 2 ^ 52 - 1) := by
      generalize bits / 2 ^ 52 - 1 = e
      rw [Nat.log2_eq_iff (Nat.mul_ne_zero positive (Nat.pos_iff_ne_zero.mp (Nat.two_pow_pos e)))]
      constructor
      · rw [Nat.pow_add]
        exact Nat.mul_le_mul_right _ (by omega)
      · rw [show 52 + e + 1 = 53 + e by omega, Nat.pow_add]
        exact (Nat.mul_lt_mul_right (Nat.two_pow_pos e)).mpr (by omega)
    simp only [small, if_false, log, Nat.add_sub_cancel_left]
    rw [Nat.mul_assoc, Nat.mul_comm (2 ^ _) den,
      roundHalfEven_mul _ (Nat.mul_pos hden (Nat.two_pow_pos _))]
    omega

def ofMagnitude (bits : Nat) : Float :=
  Float.ofBits (UInt64.ofNat bits)

end Number

end Reckoner
