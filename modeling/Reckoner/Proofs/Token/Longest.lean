import Mathlib.Data.List.TakeWhile
import Mathlib.Data.String.Basic
import Reckoner.Token.Scan

namespace Reckoner.Token

def IsDigits (s : List Char) : Prop :=
  s ≠ [] ∧ ∀ c ∈ s, c.isDigit = true

def DigitFirst (s : List Char) : Prop :=
  ∃ c ∈ s.head?, c.isDigit = true

/-- The numeral in front of the rest cannot be made longer with characters of it. -/
inductive LongestNumeral : List Char → List Char → Prop where
  | whole {ds rest : List Char} :
      IsDigits ds → ¬ DigitFirst rest → (∀ r, rest = '.' :: r → ¬ DigitFirst r) →
      LongestNumeral ds rest
  | decimal {ds fs rest : List Char} :
      IsDigits ds → IsDigits fs → ¬ DigitFirst rest → LongestNumeral (ds ++ '.' :: fs) rest

theorem not_digitFirst_nil : ¬ DigitFirst [] := by
  rintro ⟨c, first, _⟩
  contradiction

theorem digitFirst_cons {c : Char} {s : List Char} : DigitFirst (c :: s) ↔ c.isDigit = true := by
  simp [DigitFirst]

theorem IsDigits.digitFirst {s : List Char} (digits : IsDigits s) (rest : List Char) :
    DigitFirst (s ++ rest) := by
  obtain ⟨nonempty, all⟩ := digits
  cases s with
  | nil => contradiction
  | cons c s => exact digitFirst_cons.mpr (all c List.mem_cons_self)

theorem IsDigits.getLast?_append {s : List Char} (digits : IsDigits s) (front : List Char) :
    ∃ c ∈ (front ++ s).getLast?, c.isDigit = true := by
  refine ⟨s.getLast digits.1, ?_, digits.2 _ (List.getLast_mem digits.1)⟩
  simp [List.getLast?_append, List.getLast?_eq_some_getLast digits.1]

theorem not_digitFirst_dropWhile (s : List Char) : ¬ DigitFirst (s.dropWhile Char.isDigit) := by
  rintro ⟨c, first, digit⟩
  have stopped := List.head?_dropWhile_not Char.isDigit s
  rw [first] at stopped
  simp [digit] at stopped

theorem takeWhile_digits {s rest : List Char} (digits : ∀ c ∈ s, c.isDigit = true)
    (stops : ¬ DigitFirst rest) :
    (s ++ rest).takeWhile Char.isDigit = s ∧ (s ++ rest).dropWhile Char.isDigit = rest := by
  rw [List.takeWhile_append_of_pos digits, List.dropWhile_append_of_pos digits]
  cases rest with
  | nil => simp
  | cons c rest =>
    have other : ¬ c.isDigit = true := fun digit => stops (digitFirst_cons.mpr digit)
    rw [List.takeWhile_cons_of_neg other, List.dropWhile_cons_of_neg other]
    simp

theorem isDigits_takeWhile {s : List Char} (first : DigitFirst s) :
    IsDigits (s.takeWhile Char.isDigit) := by
  refine ⟨?_, fun c member => List.mem_takeWhile_imp member⟩
  obtain ⟨c, head, digit⟩ := first
  cases s with
  | nil => contradiction
  | cons d s =>
    cases head
    simp [digit]

theorem splitNumeral_longest {s : List Char} (first : DigitFirst s) :
    LongestNumeral (splitNumeral s).1 (splitNumeral s).2 := by
  have whole := isDigits_takeWhile first
  unfold splitNumeral
  split
  · next r after =>
    split
    · next none =>
      refine .whole whole (digitFirst_cons.not.mpr (by decide)) ?_
      rintro r' same digit
      cases same
      have fraction := (isDigits_takeWhile digit).1
      exact fraction (List.isEmpty_iff.mp none)
    · next some =>
      have fraction : IsDigits (r.takeWhile Char.isDigit) :=
        ⟨fun none => some (List.isEmpty_iff.mpr none), fun c member => List.mem_takeWhile_imp member⟩
      exact .decimal whole fraction (not_digitFirst_dropWhile r)
  · next noPoint =>
    refine .whole whole (not_digitFirst_dropWhile s) ?_
    intro r same
    exact absurd same (noPoint r)

/-- Only the splitting at the longest numeral leaves a numeral that cannot be made longer. -/
theorem splitNumeral_of_longest {numeral rest : List Char} (longest : LongestNumeral numeral rest) :
    splitNumeral (numeral ++ rest) = (numeral, rest) := by
  cases longest with
  | whole digits stops point =>
    obtain ⟨taken, left⟩ := takeWhile_digits digits.2 stops
    unfold splitNumeral
    rw [taken, left]
    split
    · next r =>
      have none : (r.takeWhile Char.isDigit).isEmpty = true := by
        have stopped := point r rfl
        cases r with
        | nil => rfl
        | cons c r =>
          have other : ¬ c.isDigit = true := fun digit => stopped (digitFirst_cons.mpr digit)
          rw [List.takeWhile_cons_of_neg other]
          rfl
      rw [if_pos none]
    · rfl
  | @decimal ds fs rest digits fraction stops =>
    have point : ¬ DigitFirst ('.' :: (fs ++ rest)) := digitFirst_cons.not.mpr (by decide)
    obtain ⟨taken, left⟩ := takeWhile_digits digits.2 point
    obtain ⟨takenAfter, leftAfter⟩ := takeWhile_digits fraction.2 stops
    have some : ¬ fs.isEmpty = true := fun none => fraction.1 (List.isEmpty_iff.mp none)
    rw [List.append_assoc, List.cons_append]
    simp only [splitNumeral, taken, left, takenAfter, leftAfter, if_neg some]

theorem utf8Size_of_isDigit {c : Char} (digit : c.isDigit = true) : c.utf8Size = 1 := by
  simp only [Char.isDigit, Bool.and_eq_true, decide_eq_true_eq] at digit
  have small : c.val ≤ 127 := UInt32.le_trans digit.2 (by decide)
  exact if_pos small

def symbols : List Char :=
  ['+', '-', '*', '/', '(', ')']

theorem mem_symbols_of_ofSymbol? {c : Char} {kind : Kind} (symbol : Kind.ofSymbol? c = some kind) :
    c ∈ symbols := by
  unfold Kind.ofSymbol? at symbol
  split at symbol
  all_goals first | decide | contradiction

theorem isSome_ofSymbol? {c : Char} (member : c ∈ symbols) : (Kind.ofSymbol? c).isSome = true := by
  simp only [symbols, List.mem_cons, List.not_mem_nil, or_false] at member
  rcases member with rfl | rfl | rfl | rfl | rfl | rfl <;> rfl

theorem utf8Size_of_mem_symbols {c : Char} (member : c ∈ symbols) : c.utf8Size = 1 := by
  simp only [symbols, List.mem_cons, List.not_mem_nil, or_false] at member
  rcases member with rfl | rfl | rfl | rfl | rfl | rfl <;> rfl

theorem utf8Len_digits {s : List Char} (digits : ∀ c ∈ s, c.isDigit = true) :
    String.utf8Len s = s.length := by
  induction s with
  | nil => rfl
  | cons c s ih =>
    have one := utf8Size_of_isDigit (digits c List.mem_cons_self)
    have others := ih fun d member => digits d (List.mem_cons_of_mem c member)
    rw [String.utf8Len_cons, one, others, List.length_cons]

theorem LongestNumeral.utf8Len {numeral rest : List Char}
    (longest : LongestNumeral numeral rest) : String.utf8Len numeral = numeral.length := by
  cases longest with
  | whole digits => exact utf8Len_digits digits.2
  | decimal digits fraction =>
    have point : '.'.utf8Size = 1 := rfl
    rw [String.utf8Len_append, String.utf8Len_cons, utf8Len_digits digits.2,
      utf8Len_digits fraction.2, point, List.length_append, List.length_cons]

end Reckoner.Token
