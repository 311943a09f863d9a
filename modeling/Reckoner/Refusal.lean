namespace Reckoner

/-- A character that belongs to no token, with its byte offset in the text. -/
structure ForeignCharacter where
  character : Char
  position : Nat
deriving DecidableEq, Repr

def ForeignCharacter.message (f : ForeignCharacter) : String :=
  s!"Unexpected character '{f.character}' at position {f.position}"

inductive GrammarFault where
  /-- There is nothing before the end of the input. -/
  | empty
  /-- The input ends where an operand is due. -/
  | unexpectedEnd
  /-- An operator or a right parenthesis stands where an operand is due. -/
  | unexpectedToken (text : String)
  /-- Something other than a right parenthesis follows an expression in parentheses. -/
  | unclosed
  /-- A token follows the whole expression. -/
  | trailing (text : String)
  /-- The text of a numeral stands for no number. -/
  | badNumeral (text : String)
  /-- The tree is deeper than the limit. -/
  | tooDeep (limit : Nat)
deriving DecidableEq, Repr

def GrammarFault.message : GrammarFault → String
  | .empty => "Empty expression"
  | .unexpectedEnd => "Unexpected end of input"
  | .unexpectedToken text => s!"Unexpected token \"{text}\""
  | .unclosed => "Expected right parenthesis"
  | .trailing text => s!"Unexpected trailing token \"{text}\""
  | .badNumeral text => s!"Invalid numeric literal \"{text}\""
  | .tooDeep limit => s!"Expression nested deeper than {limit} levels"

inductive Refusal where
  | foreign (fault : ForeignCharacter)
  | malformed (fault : GrammarFault)
deriving DecidableEq, Repr

def Refusal.message : Refusal → String
  | .foreign fault => fault.message
  | .malformed fault => fault.message

end Reckoner
