import Reckoner.Number.Nearest

namespace Reckoner.Number

structure Decimal where
  digits : Nat
  places : Nat
deriving DecidableEq, Repr

namespace Decimal

def nearestBits (d : Decimal) : Nat :=
  Number.nearestBits d.digits (10 ^ d.places)

/-- The decimal `digits / 10 ^ places` without zeros at the end of its fraction. -/
def trimmed (digits : Nat) : (places : Nat) → Decimal
  | 0 => ⟨digits, 0⟩
  | places + 1 =>
    if digits % 10 = 0 then trimmed (digits / 10) places else ⟨digits, places + 1⟩

theorem trimmed_value (digits places : Nat) :
    (trimmed digits places).digits * 10 ^ places = digits * 10 ^ (trimmed digits places).places := by
  fun_induction trimmed digits places with
  | case1 => rfl
  | case2 digits places h ih =>
    rw [Nat.pow_succ, ← Nat.mul_assoc, ih, Nat.mul_right_comm]
    congr 1
    omega
  | case3 => rfl

theorem trimmed_binary (n places : Nat) :
    (trimmed (n * 5 ^ places) places).digits * 2 ^ places =
      n * 10 ^ (trimmed (n * 5 ^ places) places).places := by
  have value := trimmed_value (n * 5 ^ places) places
  rw [show 10 ^ places = 2 ^ places * 5 ^ places from Nat.mul_pow 2 5 places, ← Nat.mul_assoc,
    Nat.mul_right_comm n] at value
  have positive : 0 < 5 ^ places := Nat.pow_pos (by decide)
  exact Nat.eq_of_mul_eq_mul_right positive value

/-- The digits of the decimal, with zeros in front so that one stands before the point. -/
def paddedDigits (d : Decimal) : List Char :=
  let ds := Nat.toDigits 10 d.digits
  List.replicate (d.places + 1 - ds.length) '0' ++ ds

/-- All places are written out, and a point stands only before a fraction. -/
def text (d : Decimal) : List Char :=
  let ds := d.paddedDigits
  let whole := ds.length - d.places
  if d.places = 0 then ds else ds.take whole ++ '.' :: ds.drop whole

end Decimal

end Reckoner.Number
