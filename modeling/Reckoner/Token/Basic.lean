import Reckoner.Expr.Basic

namespace Reckoner

inductive Kind where
  | numeral
  | plus
  | minus
  | times
  | divide
  | leftParen
  | rightParen
deriving DecidableEq, Repr

def Kind.ofSymbol? : Char → Option Kind
  | '+' => some .plus
  | '-' => some .minus
  | '*' => some .times
  | '/' => some .divide
  | '(' => some .leftParen
  | ')' => some .rightParen
  | _ => none

def Kind.name : Kind → String
  | .numeral => "NumericLiteral"
  | .plus => "Plus"
  | .minus => "Minus"
  | .times => "Multiply"
  | .divide => "Divide"
  | .leftParen => "LeftParen"
  | .rightParen => "RightParen"

/-- The kind and the text of a token are independent; a scan of a text makes them agree. -/
inductive Token where
  | lexeme (kind : Kind) (text : String)
  | endOfInput
deriving DecidableEq, Repr

namespace Token

def display : Token → String
  | .lexeme _ text => text
  | .endOfInput => "<EOF>"

def additive? : Token → Option Operator
  | .lexeme .plus _ => some .add
  | .lexeme .minus _ => some .subtract
  | _ => none

def multiplicative? : Token → Option Operator
  | .lexeme .times _ => some .multiply
  | .lexeme .divide _ => some .divide
  | _ => none

end Token

end Reckoner
