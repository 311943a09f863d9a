import Reckoner.Number.Nearest

namespace Reckoner.Number

def digitsValue (ds : List Char) : Nat :=
  Nat.ofDigitChars 10 ds 0

/-- An unsigned numeral: `digits / 10 ^ places * 10 ^ exponent`. -/
structure Numeral where
  digits : Nat
  places : Nat
  exponent : Int
deriving DecidableEq, Repr

def Numeral.nearestBits (n : Numeral) : Nat :=
  Number.nearestBits (n.digits * 10 ^ n.exponent.toNat) (10 ^ (n.places + (-n.exponent).toNat))

/-- The size of an exponent. Digits that follow once it has passed 65535 are left out: such a
numeral is zero or infinite already, unless it is tens of thousands of digits long. -/
def exponentSize (ds : List Char) : Nat :=
  ds.foldl (fun size c => if size < 0x10000 then 10 * size + (c.toNat - '0'.toNat) else size) 0

def readExponent? (s : List Char) : Option Int :=
  let size? (ds : List Char) : Option Nat :=
    if ds.isEmpty ∨ ¬ ds.all Char.isDigit then none else some (exponentSize ds)
  match s with
  | '-' :: ds => (size? ds).map fun n => -(n : Int)
  | '+' :: ds => (size? ds).map fun n => (n : Int)
  | ds => (size? ds).map fun n => (n : Int)

/-- An unsigned numeral with at least one digit on either side of the point; it fills the text. -/
def Numeral.read? (s : List Char) : Option Numeral :=
  let whole := s.takeWhile Char.isDigit
  let (fraction, rest) := match s.dropWhile Char.isDigit with
    | '.' :: r => (r.takeWhile Char.isDigit, r.dropWhile Char.isDigit)
    | r => ([], r)
  let numeral (exponent : Int) : Numeral :=
    ⟨digitsValue (whole ++ fraction), fraction.length, exponent⟩
  if whole.isEmpty ∧ fraction.isEmpty then none
  else match rest with
    | [] => some (numeral 0)
    | c :: r => if c.toLower = 'e' then (readExponent? r).map numeral else none

def readUnsigned? (s : List Char) : Option Float :=
  match Numeral.read? s with
  | some n => some (ofMagnitude n.nearestBits)
  | none =>
    let word := String.ofList (s.map Char.toLower)
    if word = "inf" ∨ word = "infinity" then some (ofMagnitude infinityBits)
    else if word = "nan" then some (0 / 0)
    else none

/-- The number a text stands for: the magnitude nearest to the exact decimal, with its sign. -/
def read? (text : String) : Option Float :=
  match text.toList with
  | '-' :: s => (readUnsigned? s).map fun x => -x
  | '+' :: s => readUnsigned? s
  | s => readUnsigned? s

end Reckoner.Number
