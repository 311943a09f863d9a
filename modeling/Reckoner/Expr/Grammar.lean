import Reckoner.Number.Numeral
import Reckoner.Token.Basic

namespace Reckoner

/-- The tokens before the end of the input: all of them, if it is not marked. -/
def Token.content (ts : List Token) : List Token :=
  ts.takeWhile (· ≠ .endOfInput)

namespace Expr

mutual

/-- A sum and a product end in their last operand, so that operators of one rank group to the
left. -/
inductive IsSum : List Token → Expr → Prop where
  | single {ts : List Token} {t : Expr} : IsProduct ts t → IsSum ts t
  | next {ls rs : List Token} {t : Token} {l r : Expr} {operator : Operator} :
      IsSum ls l → t.additive? = some operator → IsProduct rs r →
      IsSum (ls ++ t :: rs) (.binary l operator r)

inductive IsProduct : List Token → Expr → Prop where
  | single {ts : List Token} {t : Expr} : IsOperand ts t → IsProduct ts t
  | next {ls rs : List Token} {t : Token} {l r : Expr} {operator : Operator} :
      IsProduct ls l → t.multiplicative? = some operator → IsOperand rs r →
      IsProduct (ls ++ t :: rs) (.binary l operator r)

inductive IsOperand : List Token → Expr → Prop where
  | number {text : String} {x : Float} :
      Number.read? text = some x → IsOperand [.lexeme .numeral text] (.number x)
  | plus {text : String} {ts : List Token} {t : Expr} :
      IsOperand ts t → IsOperand (.lexeme .plus text :: ts) (.signed .plus t)
  | minus {text : String} {ts : List Token} {t : Expr} :
      IsOperand ts t → IsOperand (.lexeme .minus text :: ts) (.signed .minus t)
  | group {left right : String} {ts : List Token} {t : Expr} :
      IsSum ts t →
      IsOperand (.lexeme .leftParen left :: ts ++ [.lexeme .rightParen right]) (.group t)

end

end Expr

end Reckoner
