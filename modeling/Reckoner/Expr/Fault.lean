import Reckoner.Number.Numeral
import Reckoner.Refusal
import Reckoner.Token.Basic

namespace Reckoner.Expr

def faultFrom? (operatorDue : Bool) (opened : Nat) : List Token → Option GrammarFault
  | [] =>
    if ¬ operatorDue then some .unexpectedEnd
    else if 0 < opened then some .unclosed
    else none
  | .endOfInput :: _ =>
    if ¬ operatorDue then some .unexpectedEnd
    else if 0 < opened then some .unclosed
    else none
  | .lexeme kind text :: ts =>
    if operatorDue then
      match kind with
      | .plus | .minus | .times | .divide => faultFrom? false opened ts
      | .rightParen =>
        if 0 < opened then faultFrom? true (opened - 1) ts else some (.trailing text)
      | .numeral | .leftParen => some (if 0 < opened then .unclosed else .trailing text)
    else
      match kind with
      | .plus | .minus => faultFrom? false opened ts
      | .leftParen => faultFrom? false (opened + 1) ts
      | .numeral =>
        if (Number.read? text).isSome then faultFrom? true opened ts else some (.badNumeral text)
      | .times | .divide | .rightParen => some (.unexpectedToken text)

/-- The first fault in one pass and without a tree: how deep that would be is not looked at. -/
def fault? : List Token → Option GrammarFault
  | [] => some .empty
  | .endOfInput :: _ => some .empty
  | .lexeme kind text :: ts => faultFrom? false 0 (.lexeme kind text :: ts)

end Reckoner.Expr
