import Reckoner.Number.Decimal

namespace Reckoner.Number

/-- The power of ten just above a positive finite magnitude, as an exponent. The magnitude is
scaled up so that none of its leading digits is lost; a number has as many digits as the power of
two below it, or one more. -/
def decimalScale (bits : Nat) : Int :=
  let scaled := units bits * 10 ^ (340 : Nat) / 2 ^ unitPlaces
  let fewest := scaled.log2 * 30103 / 100000 + 1
  (if scaled < 10 ^ fewest then fewest else fewest + 1 : Nat) - 340

def gridPoint (count : Nat) (grid : Int) : Decimal :=
  .trimmed (count * 10 ^ grid.toNat) (-grid).toNat

/-- The better neighbour of a magnitude among the multiples of `10 ^ grid`, if one reads back. -/
def neighbour? (bits : Nat) (grid : Int) : Option Decimal :=
  let num := units bits * 10 ^ (-grid).toNat
  let den := 2 ^ unitPlaces * 10 ^ grid.toNat
  let count := num / den
  let below := gridPoint count grid
  let above := gridPoint (count + 1) grid
  if below.nearestBits = bits then
    if above.nearestBits = bits ∧ (2 * count + 1) * den ≤ 2 * num then some above else some below
  else if above.nearestBits = bits then some above
  else none

def exactDecimal (bits : Nat) : Decimal :=
  .trimmed (units bits * 5 ^ unitPlaces) unitPlaces

/-- The decimal that stands for a finite magnitude. Seventeen digits always suffice to read a
magnitude back; the exact decimal completes the search without an appeal to that fact. -/
def shortest (bits : Nat) : Decimal :=
  let scale := decimalScale bits
  ((List.range 17).findSome? fun (more : Nat) => neighbour? bits (scale - 1 - more)).getD
    (exactDecimal bits)

theorem nearestBits_neighbour {bits : Nat} {grid : Int} {d : Decimal}
    (h : neighbour? bits grid = some d) : d.nearestBits = bits := by
  unfold neighbour? at h
  dsimp only at h
  split at h
  · split at h
    · cases h
      next high => exact high.1
    · cases h
      assumption
  · split at h
    · cases h
      assumption
    · contradiction

theorem nearestBits_exactDecimal {bits : Nat} (h : bits < infinityBits) :
    (exactDecimal bits).nearestBits = bits :=
  nearestBits_eq (Nat.pow_pos (by decide)) h (Decimal.trimmed_binary (units bits) unitPlaces)

/-- The decimal that stands for a finite magnitude reads back as that magnitude. -/
theorem nearestBits_shortest {bits : Nat} (h : bits < infinityBits) :
    (shortest bits).nearestBits = bits := by
  unfold shortest
  dsimp only
  cases found : (List.range 17).findSome? fun (more : Nat) =>
      neighbour? bits (decimalScale bits - 1 - more) with
  | none =>
    rw [Option.getD_none]
    exact nearestBits_exactDecimal h
  | some d =>
    rw [Option.getD_some]
    obtain ⟨more, _, hd⟩ := List.exists_of_findSome?_eq_some found
    exact nearestBits_neighbour hd

def magnitudeText (bits : Nat) : String :=
  if bits = infinityBits then "inf" else String.ofList (shortest bits).text

/-- The text of a number, with a minus sign for a set sign bit, that of zero included. -/
def text (x : Float) : String :=
  let bits := x.toBits.toNat
  if x.isNaN then "NaN"
  else if bits < 2 ^ (63 : Nat) then magnitudeText bits
  else "-" ++ magnitudeText (bits - 2 ^ (63 : Nat))

end Reckoner.Number
