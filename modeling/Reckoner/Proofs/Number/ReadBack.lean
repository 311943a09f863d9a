-- The lemmas about the bits of a `Float` are of Batteries; no single module of Mathlib brings them.
import Mathlib
import Reckoner.Number.Numeral
import Reckoner.Number.Shortest
import Reckoner.Proofs.Token.Written

namespace Reckoner.Number

open Float.Model (Format)
open Float.Model.UnpackedFloat
open Token (IsDigits IsNumeral DigitFirst)

theorem toNat_unpackExponent (b : UInt64) :
    (@unpackExponent Format.binary64 b.toBitVec).toNat =
      b.toNat / 2 ^ (52 : Nat) % 2 ^ (11 : Nat) := by
  rw [unpackExponent_def, BitVec.extractLsb'_toNat, Nat.shiftRight_eq_div_pow]
  rfl

theorem unpackExponent_ne_of_finite {x : Float} (finite : x.isFinite = true) :
    @unpackExponent Format.binary64 x.toBits.toBitVec ≠ -1#11 := by
  intro full
  have unpacked : (unpack Format.binary64 x.toBits.toBitVec).isFinite = true := finite
  simp only [unpack, if_pos full] at unpacked
  split at unpacked <;> contradiction

theorem isNaN_of_finite {x : Float} (finite : x.isFinite = true) : x.isNaN = false := by
  unfold Float.isFinite Float.Model.isFinite at finite
  unfold Float.isNaN Float.Model.isNaN
  cases unpacked : x.toModel.unpack with
  | notANumber =>
    rw [unpacked] at finite
    contradiction
  | infinity | zero | finite => rfl

theorem ofMagnitude_toBits (x : Float) : ofMagnitude x.toBits.toNat = x := by
  rw [ofMagnitude, UInt64.ofNat_toNat, Float.ofBits_toBits]

theorem toBits_ofMagnitude {bits : Nat} (finite : bits < infinityBits) :
    (ofMagnitude bits).toBits.toNat = bits := by
  have limit : infinityBits = 2047 * 2 ^ (52 : Nat) := rfl
  have size : (UInt64.ofNat bits).toNat = bits := by
    rw [UInt64.toNat_ofNat']
    omega
  have number : @isNaNBits Format.binary64 (UInt64.ofNat bits).toBitVec = false := by
    apply decide_eq_false
    rintro ⟨full, _⟩
    have exponent := toNat_unpackExponent (UInt64.ofNat bits)
    rw [full, size] at exponent
    change 2047 = bits / 2 ^ (52 : Nat) % 2 ^ (11 : Nat) at exponent
    omega
  have packed := @pack_unpack Format.binary64 (UInt64.ofNat bits).toBitVec (by decide)
  rw [number, if_neg Bool.false_ne_true] at packed
  calc (ofMagnitude bits).toBits.toNat
    _ = ((unpack Format.binary64 (UInt64.ofNat bits).toBitVec).pack Format.binary64).toNat := rfl
    _ = (UInt64.ofNat bits).toNat := by rw [packed]; rfl
    _ = bits := size

theorem not_finite_infinity : (ofMagnitude infinityBits).isFinite = false := by
  decide +kernel

structure IsMagnitude (x : Float) : Prop where
  finite : x.isFinite = true
  clear : x.toBits.toNat < 2 ^ (63 : Nat)

instance (x : Float) : Decidable (IsMagnitude x) :=
  decidable_of_iff (x.isFinite = true ∧ x.toBits.toNat < 2 ^ (63 : Nat))
    ⟨fun h => ⟨h.1, h.2⟩, fun h => ⟨h.1, h.2⟩⟩

theorem IsMagnitude.toBits_lt {x : Float} (magnitude : IsMagnitude x) :
    x.toBits.toNat < infinityBits := by
  have limit : infinityBits = 2047 * 2 ^ (52 : Nat) := rfl
  have clear := magnitude.clear
  have other : x.toBits.toNat / 2 ^ (52 : Nat) % 2 ^ (11 : Nat) ≠ 2047 := by
    intro full
    apply unpackExponent_ne_of_finite magnitude.finite
    apply BitVec.eq_of_toNat_eq
    rw [toNat_unpackExponent, full]
    rfl
  omega

theorem isMagnitude_of_finite {bits : Nat} (bound : bits ≤ infinityBits)
    (finite : (ofMagnitude bits).isFinite = true) : IsMagnitude (ofMagnitude bits) := by
  have other : bits ≠ infinityBits := by
    intro same
    rw [same, not_finite_infinity] at finite
    contradiction
  have below : bits < infinityBits := Nat.lt_of_le_of_ne bound other
  have limit : infinityBits = 2047 * 2 ^ (52 : Nat) := rfl
  refine ⟨finite, ?_⟩
  rw [toBits_ofMagnitude below]
  omega

section Numeral

variable {ds fs : List Char}

theorem Numeral.read?_whole (digits : IsDigits ds) :
    Numeral.read? ds = some ⟨digitsValue ds, 0, 0⟩ := by
  obtain ⟨taken, left⟩ := Token.takeWhile_digits digits.2 Token.not_digitFirst_nil
  rw [List.append_nil] at taken left
  have some : ds.isEmpty = false := List.isEmpty_eq_false_iff.mpr digits.1
  simp [Numeral.read?, taken, left, some]

theorem Numeral.read?_decimal (digits : IsDigits ds) (fraction : IsDigits fs) :
    Numeral.read? (ds ++ '.' :: fs) = some ⟨digitsValue (ds ++ fs), fs.length, 0⟩ := by
  have point : ¬ DigitFirst ('.' :: fs) := Token.digitFirst_cons.not.mpr (by decide)
  obtain ⟨taken, left⟩ := Token.takeWhile_digits digits.2 point
  obtain ⟨takenAfter, leftAfter⟩ := Token.takeWhile_digits fraction.2 Token.not_digitFirst_nil
  rw [List.append_nil] at takenAfter leftAfter
  have some : ds.isEmpty = false := List.isEmpty_eq_false_iff.mpr digits.1
  simp [Numeral.read?, taken, left, takenAfter, leftAfter, some]

theorem exists_numeral {s : List Char} (form : IsNumeral s) : ∃ n, Numeral.read? s = some n := by
  cases form with
  | whole digits => exact ⟨_, Numeral.read?_whole digits⟩
  | decimal digits fraction => exact ⟨_, Numeral.read?_decimal digits fraction⟩

theorem read?_ofList {s : List Char} {n : Numeral} (form : IsNumeral s)
    (read : Numeral.read? s = some n) :
    read? (String.ofList s) = some (ofMagnitude n.nearestBits) := by
  obtain ⟨c, first, digit⟩ := form.digitFirst []
  rw [List.append_nil] at first
  have unsigned : readUnsigned? s = some (ofMagnitude n.nearestBits) := by
    rw [readUnsigned?, read]
  unfold read?
  rw [String.toList_ofList]
  split
  · cases first
    contradiction
  · cases first
    contradiction
  · exact unsigned

theorem read?_of_isNumeral {text : String} (form : IsNumeral text.toList) :
    ∃ bits, bits ≤ infinityBits ∧ read? text = some (ofMagnitude bits) := by
  obtain ⟨n, read⟩ := exists_numeral form
  have number := read?_ofList form read
  rw [String.ofList_toList] at number
  exact ⟨n.nearestBits, nearestBits_le _ _, number⟩

end Numeral

namespace Decimal

variable (d : Decimal)

theorem isDigit_paddedDigits : ∀ c ∈ d.paddedDigits, c.isDigit = true := by
  intro c member
  rcases List.mem_append.mp member with zero | digit
  · rw [List.eq_of_mem_replicate zero]
    rfl
  · exact Nat.isDigit_of_mem_toDigits (by decide) (by decide) digit

theorem places_lt_length_paddedDigits : d.places < d.paddedDigits.length := by
  rw [paddedDigits, List.length_append, List.length_replicate]
  omega

theorem digitsValue_paddedDigits : digitsValue d.paddedDigits = d.digits := by
  rw [digitsValue, paddedDigits, Nat.ofDigitChars_append, Nat.ofDigitChars_replicate_zero,
    Nat.mul_zero, Nat.ofDigitChars_ten_toDigits]

/-- The text is a numeral and stands for the decimal. -/
theorem read?_text : IsNumeral d.text ∧ Numeral.read? d.text = some ⟨d.digits, d.places, 0⟩ := by
  have digits := d.isDigit_paddedDigits
  have room := d.places_lt_length_paddedDigits
  have value := d.digitsValue_paddedDigits
  unfold text
  by_cases none : d.places = 0
  · have nonempty : d.paddedDigits ≠ [] := List.ne_nil_of_length_pos (by omega)
    rw [if_pos none]
    refine ⟨.whole ⟨nonempty, digits⟩, ?_⟩
    rw [Numeral.read?_whole ⟨nonempty, digits⟩, value, none]
  · have parts := List.take_append_drop (d.paddedDigits.length - d.places) d.paddedDigits
    have before : IsDigits (d.paddedDigits.take (d.paddedDigits.length - d.places)) := by
      refine ⟨?_, fun c member => digits c (List.mem_of_mem_take member)⟩
      apply List.ne_nil_of_length_pos
      rw [List.length_take]
      omega
    have length : (d.paddedDigits.drop (d.paddedDigits.length - d.places)).length = d.places := by
      rw [List.length_drop]
      omega
    have after : IsDigits (d.paddedDigits.drop (d.paddedDigits.length - d.places)) := by
      refine ⟨?_, fun c member => digits c (List.mem_of_mem_drop member)⟩
      apply List.ne_nil_of_length_pos
      omega
    rw [if_neg none]
    refine ⟨.decimal before after, ?_⟩
    rw [Numeral.read?_decimal before after, parts, value, length]

theorem nearestBits_numeral :
    Numeral.nearestBits ⟨d.digits, d.places, 0⟩ = d.nearestBits := by
  simp [Numeral.nearestBits, nearestBits]

end Decimal

section Text

variable {x : Float}

theorem text_of_isMagnitude (magnitude : IsMagnitude x) :
    text x = String.ofList (shortest x.toBits.toNat).text := by
  have other : x.toBits.toNat ≠ infinityBits := Nat.ne_of_lt magnitude.toBits_lt
  have number : x.isNaN = false := isNaN_of_finite magnitude.finite
  simp only [text, number, magnitude.clear, magnitudeText, other, Bool.false_eq_true, if_false,
    if_true]

theorem isNumeral_text (magnitude : IsMagnitude x) : IsNumeral (text x).toList := by
  rw [text_of_isMagnitude magnitude, String.toList_ofList]
  exact (Decimal.read?_text _).1

theorem read?_text (magnitude : IsMagnitude x) : read? (text x) = some x := by
  obtain ⟨form, read⟩ := (shortest x.toBits.toNat).read?_text
  rw [text_of_isMagnitude magnitude, read?_ofList form read, Decimal.nearestBits_numeral,
    nearestBits_shortest magnitude.toBits_lt, ofMagnitude_toBits]

end Text

end Reckoner.Number
