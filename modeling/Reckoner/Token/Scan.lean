import Reckoner.Refusal
import Reckoner.Text.Basic
import Reckoner.Token.Basic

namespace Reckoner.Token

/-- The numeral at the head of a text and what follows it: a run of digits, and with it a point if
that has a digit on its right, and the digits there. -/
def splitNumeral (s : List Char) : List Char × List Char :=
  match s.dropWhile Char.isDigit with
  | '.' :: r =>
    if (r.takeWhile Char.isDigit).isEmpty then (s.takeWhile Char.isDigit, '.' :: r)
    else (s.takeWhile Char.isDigit ++ '.' :: r.takeWhile Char.isDigit, r.dropWhile Char.isDigit)
  | r => (s.takeWhile Char.isDigit, r)

theorem splitNumeral_append (s : List Char) :
    (splitNumeral s).1 ++ (splitNumeral s).2 = s := by
  have whole := List.takeWhile_append_dropWhile (p := Char.isDigit) (l := s)
  unfold splitNumeral
  split
  · next r h =>
    have fraction := List.takeWhile_append_dropWhile (p := Char.isDigit) (l := r)
    split
    · rw [h] at whole
      exact whole
    · simp only [List.append_assoc, List.cons_append, fraction]
      rw [h] at whole
      exact whole
  · exact whole

theorem splitNumeral_ne_nil {c : Char} {s : List Char} (h : c.isDigit = true) :
    (splitNumeral (c :: s)).1 ≠ [] := by
  have whole : (c :: s).takeWhile Char.isDigit ≠ [] := by
    simp [h]
  unfold splitNumeral
  split
  · split
    · exact whole
    · simp
  · exact whole

theorem splitNumeral_shorter {c : Char} {s : List Char} (h : c.isDigit = true) :
    (splitNumeral (c :: s)).2.length < (c :: s).length := by
  have parts := congrArg List.length (splitNumeral_append (c :: s))
  have first := List.length_pos_iff.mpr (splitNumeral_ne_nil (s := s) h)
  rw [List.length_append] at parts
  omega

/-- Scans the text from a byte offset on. The tokens before it come last first. -/
def scanFrom (position : Nat) (scanned : List Token) :
    List Char → Except ForeignCharacter (List Token)
  | [] => .ok (.endOfInput :: scanned).reverse
  | c :: s =>
    if c.isDigit then
      let numeral := (splitNumeral (c :: s)).1
      scanFrom (position + numeral.length)
        (.lexeme .numeral (String.ofList numeral) :: scanned) (splitNumeral (c :: s)).2
    else match Kind.ofSymbol? c with
      | some kind => scanFrom (position + 1) (.lexeme kind (String.singleton c) :: scanned) s
      | none =>
        if Text.isBlank c then scanFrom (position + c.utf8Size) scanned s
        else .error ⟨c, position⟩
termination_by s => s.length
decreasing_by
  · exact splitNumeral_shorter (by assumption)
  · simp
  · simp

/-- The tokens of a text with the end of input after them, or the first character that belongs to
none. -/
def scan (text : String) : Except ForeignCharacter (List Token) :=
  scanFrom 0 [] text.toList

end Reckoner.Token
