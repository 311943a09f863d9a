import Reckoner.Text.Basic

namespace Reckoner

inductive SizeFault where
  | empty
  | badDigit
  | tooLarge
  | zero
deriving DecidableEq, Repr

def SizeFault.message : SizeFault → String
  | .empty => "cannot parse integer from empty string"
  | .badDigit => "invalid digit found in string"
  | .tooLarge => "number too large to fit in target type"
  | .zero => "number would be zero for non-zero type"

abbrev PositiveSize := { n : UInt64 // 0 < n }

namespace Size

/-- Reads digits behind a number. The first character that is no digit, or that takes the number
past the largest size, decides the fault. -/
def readDigits (read : Nat) : List Char → Except SizeFault Nat
  | [] => .ok read
  | c :: s =>
    if ¬ c.isDigit then .error .badDigit
    else
      let next := 10 * read + (c.toNat - '0'.toNat)
      if UInt64.size ≤ next then .error .tooLarge else readDigits next s

def read : List Char → Except SizeFault UInt64
  | [] => .error .empty
  | ['+'] => .error .badDigit
  | '+' :: s => (readDigits 0 s).map UInt64.ofNat
  | s => (readDigits 0 s).map UInt64.ofNat

def readPositive (s : List Char) : Except SizeFault PositiveSize :=
  match read s with
  | .error fault => .error fault
  | .ok n => if h : 0 < n then .ok ⟨n, h⟩ else .error .zero

end Size

end Reckoner
