import Reckoner.Number.Shortest

namespace Reckoner

inductive Sign where
  | plus
  | minus
deriving DecidableEq, Repr

namespace Sign

def symbol : Sign → String
  | .plus => "+"
  | .minus => "-"

def apply : Sign → Float → Float
  | .plus, x => x
  | .minus, x => -x

end Sign

inductive Operator where
  | add
  | subtract
  | multiply
  | divide
deriving DecidableEq, Repr

namespace Operator

def symbol : Operator → String
  | .add => "+"
  | .subtract => "-"
  | .multiply => "*"
  | .divide => "/"

/-- Division by zero gives an infinity or an undefined number. -/
def apply : Operator → Float → Float → Float
  | .add, x, y => x + y
  | .subtract, x, y => x - y
  | .multiply, x, y => x * y
  | .divide, x, y => x / y

end Operator

/-- The computed equality compares numbers as numbers: zero equals negative zero and an undefined
number differs from itself. `=` is finer and tells trees apart by the bits of their numbers. -/
inductive Expr where
  | number (value : Float)
  | signed (sign : Sign) (operand : Expr)
  | binary (left : Expr) (operator : Operator) (right : Expr)
  | group (inner : Expr)
deriving BEq, DecidableEq

namespace Expr

/-- The number of nodes on the longest path from the root to a number. -/
def depth : Expr → Nat
  | .number _ => 1
  | .signed _ operand => operand.depth + 1
  | .binary left _ right => max left.depth right.depth + 1
  | .group inner => inner.depth + 1

def value : Expr → Float
  | .number x => x
  | .signed sign operand => sign.apply operand.value
  | .binary left operator right => operator.apply left.value right.value
  | .group inner => inner.value

/-- Every operation on two operands stands in square brackets, and parentheses stand where the tree
has a group. -/
def display : Expr → String
  | .number x => Number.text x
  | .signed sign operand => sign.symbol ++ operand.display
  | .binary left operator right =>
    "[" ++ left.display ++ " " ++ operator.symbol ++ " " ++ right.display ++ "]"
  | .group inner => "(" ++ inner.display ++ ")"

end Expr

end Reckoner
