namespace Reckoner.Text

/-- The 25 characters with the Unicode property White_Space, as closed ranges of code points,
ascending and apart. -/
def blankRanges : List (Nat × Nat) :=
  [(0x09, 0x0D), (0x20, 0x20), (0x85, 0x85), (0xA0, 0xA0), (0x1680, 0x1680), (0x2000, 0x200A),
   (0x2028, 0x2029), (0x202F, 0x202F), (0x205F, 0x205F), (0x3000, 0x3000)]

def isBlank (c : Char) : Bool :=
  blankRanges.any fun range => range.1 ≤ c.toNat && c.toNat ≤ range.2

example : (blankRanges.map fun range => range.2 + 1 - range.1).sum = 25 := by decide

def trimBlank (s : List Char) : List Char :=
  ((s.dropWhile isBlank).reverse.dropWhile isBlank).reverse

/-- Complete lines, and the bytes after them in reverse. -/
structure Split where
  lines : List (List UInt8)
  pending : List UInt8

/-- The line that a line feed completes; its bytes come in reverse. One carriage return right
before the line feed belongs to the end of the line. -/
def completeLine : List UInt8 → List UInt8
  | 13 :: reversed => reversed.reverse
  | reversed => reversed.reverse

def splitLines (pending : List UInt8) : List UInt8 → Split
  | [] => ⟨[], pending⟩
  | b :: bytes =>
    if b = 10 then
      let others := splitLines [] bytes
      ⟨completeLine pending :: others.lines, others.pending⟩
    else splitLines (b :: pending) bytes

def lastLine (pending : List UInt8) : List (List UInt8) :=
  if pending.isEmpty then [] else [pending.reverse]

def lines (bytes : List UInt8) : List (List UInt8) :=
  let split := splitLines [] bytes
  split.lines ++ lastLine split.pending

end Reckoner.Text
