import Reckoner.Proofs.Token.Longest

namespace Reckoner.Token

/-- No numeral goes on from the one piece of text into the other. -/
def Apart (s more : List Char) : Prop :=
  ∀ c ∈ s.getLast?, ∀ d ∈ more.head?,
    ¬ ((c.isDigit = true ∨ c = '.') ∧ (d.isDigit = true ∨ d = '.'))

theorem Apart.of_append {s t more : List Char} (apart : Apart (s ++ t) more) : Apart t more := by
  intro c last
  apply apart c
  rw [List.getLast?_append, last]
  rfl

theorem apart_of_last {s more : List Char} (symbol : ∀ c ∈ s.getLast?, ¬ c.isDigit = true ∧ c ≠ '.') :
    Apart s more := by
  rintro c last d _ ⟨numeric, _⟩
  have other := symbol c last
  rcases numeric with digit | point
  · exact other.1 digit
  · exact other.2 point

theorem apart_of_head {s more : List Char} (symbol : ∀ c ∈ more.head?, ¬ c.isDigit = true ∧ c ≠ '.') :
    Apart s more := by
  rintro c _ d first ⟨_, numeric⟩
  have other := symbol d first
  rcases numeric with digit | point
  · exact other.1 digit
  · exact other.2 point

theorem not_digitFirst_append {s more : List Char} (stops : ¬ DigitFirst s)
    (joins : s = [] → ¬ DigitFirst more) : ¬ DigitFirst (s ++ more) := by
  cases s with
  | nil => exact joins rfl
  | cons c s => exact digitFirst_cons.not.mpr (digitFirst_cons.not.mp stops)

theorem Apart.not_digitFirst {s more : List Char} (apart : Apart s more)
    (numeric : ∃ c ∈ s.getLast?, c.isDigit = true ∨ c = '.') : ¬ DigitFirst more := by
  rintro ⟨d, first, digit⟩
  obtain ⟨c, last, numeric⟩ := numeric
  exact apart c last d first ⟨numeric, .inl digit⟩

theorem LongestNumeral.append {numeral rest more : List Char}
    (longest : LongestNumeral numeral rest) (apart : Apart (numeral ++ rest) more) :
    LongestNumeral numeral (rest ++ more) := by
  cases longest with
  | whole digits stops point =>
    obtain ⟨last, isLast, digit⟩ := digits.getLast?_append []
    have joins : rest = [] → ¬ DigitFirst more := by
      rintro rfl
      rw [List.append_nil] at apart
      exact apart.not_digitFirst ⟨last, isLast, .inl digit⟩
    refine .whole digits (not_digitFirst_append stops joins) ?_
    intro r same
    -- a point behind the numeral is in the other piece only if the first one ends with the numeral
    cases rest with
    | nil =>
      rw [List.append_nil] at apart
      have first : '.' ∈ more.head? := by
        rw [List.nil_append] at same
        simp [same]
      exact absurd ⟨.inl digit, .inr rfl⟩ (apart last isLast '.' first)
    | cons c rest =>
      obtain ⟨rfl, rfl⟩ := List.cons.inj same
      apply not_digitFirst_append (point rest rfl)
      rintro rfl
      exact apart.not_digitFirst ⟨'.', by simp, .inr rfl⟩
  | @decimal ds fs rest digits fraction stops =>
    refine .decimal digits fraction (not_digitFirst_append stops ?_)
    rintro rfl
    obtain ⟨last, isLast, digit⟩ := fraction.getLast?_append (ds ++ ['.'])
    rw [List.append_nil] at apart
    exact apart.not_digitFirst ⟨last, by simpa using isLast, .inl digit⟩

theorem splitNumeral_join {c : Char} {s more : List Char} (digit : c.isDigit = true)
    (apart : Apart (c :: s) more) :
    splitNumeral (c :: s ++ more) =
      ((splitNumeral (c :: s)).1, (splitNumeral (c :: s)).2 ++ more) := by
  have longest := splitNumeral_longest (digitFirst_cons (s := s).mpr digit)
  have split := splitNumeral_append (c :: s)
  have whole := splitNumeral_of_longest (longest.append (split.symm ▸ apart))
  rwa [← List.append_assoc, split] at whole

def following (offset : Nat) (before : List Token) :
    Except ForeignCharacter (List Token) → Except ForeignCharacter (List Token)
  | .ok ts => .ok (before ++ ts)
  | .error f => .error ⟨f.character, offset + f.position⟩

theorem scanFrom_following (offset : Nat) (before : List Token) (position : Nat)
    (scanned : List Token) (s : List Char) :
    scanFrom (offset + position) (scanned ++ before) s =
      following offset before.reverse (scanFrom position scanned s) := by
  fun_induction scanFrom position scanned s with
  | case1 => simp [scanFrom, following]
  | case2 position scanned c s digit numeral =>
    rename_i ih
    have bytes := Nat.add_assoc offset position numeral.length
    rw [scanFrom, if_pos digit]
    simp only [numeral] at bytes ⊢
    rw [bytes]
    exact ih
  | case3 position scanned c s other kind symbol ih =>
    simp only [scanFrom, other, symbol, Bool.false_eq_true, if_false, Nat.add_assoc]
    exact ih
  | case4 position scanned c s other noSymbol blank ih =>
    simp only [scanFrom, other, noSymbol, blank, Bool.false_eq_true, if_false, if_true,
      Nat.add_assoc]
    exact ih
  | case5 position scanned c s other noSymbol noBlank =>
    simp only [scanFrom, other, noSymbol, noBlank, Bool.false_eq_true, if_false, following]

def joined (offset : Nat) (x y : Except ForeignCharacter (List Token)) :
    Except ForeignCharacter (List Token) :=
  x.bind fun ts => following offset ts.dropLast y

theorem scanFrom_join {s more : List Char} (apart : Apart s more) (position : Nat)
    (scanned : List Token) :
    scanFrom position scanned (s ++ more) =
      joined (position + String.utf8Len s) (scanFrom position scanned s) (scanFrom 0 [] more) := by
  fun_induction scanFrom position scanned s with
  | case1 position scanned =>
    have shifted := scanFrom_following position scanned 0 [] more
    simpa [joined, Except.bind] using shifted
  | case2 position scanned c s digit numeral =>
    rename_i ih
    have split := splitNumeral_append (c :: s)
    have longest := splitNumeral_longest (digitFirst_cons (s := s).mpr digit)
    have bytes : position + String.utf8Len (c :: s) =
        position + (splitNumeral (c :: s)).1.length +
          String.utf8Len (splitNumeral (c :: s)).2 := by
      rw [← split, String.utf8Len_append, split, longest.utf8Len, Nat.add_assoc]
    have further : Apart (splitNumeral (c :: s)).2 more := by
      rw [← split] at apart
      exact apart.of_append
    rw [bytes, ← ih further, List.cons_append, scanFrom, if_pos digit, ← List.cons_append,
      splitNumeral_join digit apart]
  | case3 position scanned c s other kind symbol ih =>
    have one := utf8Size_of_mem_symbols (mem_symbols_of_ofSymbol? symbol)
    have bytes : position + String.utf8Len (c :: s) = position + 1 + String.utf8Len s := by
      rw [String.utf8Len_cons, one]
      omega
    rw [bytes, ← ih (apart.of_append (s := [c]))]
    simp only [List.cons_append, scanFrom, other, symbol, Bool.false_eq_true, if_false]
  | case4 position scanned c s other noSymbol blank ih =>
    have bytes : position + String.utf8Len (c :: s) =
        position + c.utf8Size + String.utf8Len s := by
      rw [String.utf8Len_cons]
      omega
    rw [bytes, ← ih (apart.of_append (s := [c]))]
    simp only [List.cons_append, scanFrom, other, noSymbol, blank, Bool.false_eq_true, if_false,
      if_true]
  | case5 position scanned c s other noSymbol noBlank =>
    simp only [List.cons_append, scanFrom, other, noSymbol, noBlank, Bool.false_eq_true, if_false]
    rfl

/-- The tokens of two pieces of text follow one another. If the first piece has none, neither has the
whole, for the same character; if the second has none, the whole has none for the same character,
further on by the size of the first piece. -/
theorem scan_append {a b : String} (apart : Apart a.toList b.toList) :
    scan (a ++ b) = joined a.utf8ByteSize (scan a) (scan b) := by
  have size : String.utf8Len a.toList = a.utf8ByteSize := by
    rw [← String.utf8ByteSize_ofList, String.ofList_toList]
  have outcome := scanFrom_join apart 0 []
  rwa [Nat.zero_add, size, ← String.toList_append] at outcome

theorem scanFrom_eq_ok {position : Nat} {scanned us : List Token} {s : List Char}
    (h : scanFrom position scanned s = .ok us) :
    ∃ ts, us = scanned.reverse ++ ts ++ [.endOfInput] ∧ Token.endOfInput ∉ ts ∧
      ts.length ≤ s.length := by
  fun_induction scanFrom position scanned s with
  | case1 =>
    cases h
    exact ⟨[], by simp, List.not_mem_nil, Nat.le_refl 0⟩
  | case2 position scanned c s digit numeral =>
    rename_i ih
    obtain ⟨ts, rfl, lexemes, few⟩ := ih h
    have shorter := splitNumeral_shorter (s := s) digit
    refine ⟨.lexeme .numeral (String.ofList numeral) :: ts, by simp, by simpa using lexemes, ?_⟩
    rw [List.length_cons]
    omega
  | case3 position scanned c s other kind symbol ih =>
    obtain ⟨ts, rfl, lexemes, few⟩ := ih h
    refine ⟨.lexeme kind (String.singleton c) :: ts, by simp, by simpa using lexemes, ?_⟩
    exact Nat.succ_le_succ few
  | case4 position scanned c s other noSymbol blank ih =>
    obtain ⟨ts, split, lexemes, few⟩ := ih h
    exact ⟨ts, split, lexemes, Nat.le_succ_of_le few⟩
  | case5 => contradiction

theorem mem_of_scanFrom {position : Nat} {scanned us : List Token} {s : List Char}
    (h : scanFrom position scanned s = .ok us) {kind : Kind} {text : String}
    (member : .lexeme kind text ∈ us) : .lexeme kind text ∈ scanned ∨ text.toList ⊆ s := by
  fun_induction scanFrom position scanned s with
  | case1 =>
    cases h
    left
    simpa using member
  | case2 position scanned c s digit numeral =>
    rename_i ih
    have split := splitNumeral_append (c :: s)
    rcases ih h with earlier | inside
    · rcases List.mem_cons.mp earlier with same | earlier
      · cases same
        right
        rw [String.toList_ofList]
        intro d member
        rw [← split]
        exact List.mem_append_left _ member
      · exact .inl earlier
    · right
      intro d member
      rw [← split]
      exact List.mem_append_right _ (inside member)
  | case3 position scanned c s other kind symbol ih =>
    rcases ih h with earlier | inside
    · rcases List.mem_cons.mp earlier with same | earlier
      · cases same
        right
        simp
      · exact .inl earlier
    · exact .inr (List.subset_cons_of_subset c inside)
  | case4 position scanned c s other noSymbol blank ih =>
    rcases ih h with earlier | inside
    · exact .inl earlier
    · exact .inr (List.subset_cons_of_subset c inside)
  | case5 => contradiction

theorem subset_of_scan {text : String} {us : List Token} (h : scan text = .ok us) {kind : Kind}
    {piece : String} (member : .lexeme kind piece ∈ us) : piece.toList ⊆ text.toList := by
  rcases mem_of_scanFrom h member with none | inside
  · contradiction
  · exact inside

/-- The tokens of the text before the end of the input. -/
def Lexes (text : String) (ts : List Token) : Prop :=
  scan text = .ok (ts ++ [.endOfInput])

theorem exists_lexes {text : String} {us : List Token} (h : scan text = .ok us) :
    ∃ ts, us = ts ++ [.endOfInput] ∧ Lexes text ts := by
  obtain ⟨ts, rfl, _⟩ := scanFrom_eq_ok h
  exact ⟨ts, rfl, h⟩

theorem Lexes.unique {text : String} {ts us : List Token} (first : Lexes text ts)
    (second : Lexes text us) : ts = us :=
  List.append_cancel_right (Except.ok.inj (first.symm.trans second))

theorem Lexes.lexemes {text : String} {ts : List Token} (lexes : Lexes text ts) :
    Token.endOfInput ∉ ts ∧ ts.length ≤ text.length := by
  obtain ⟨us, same, lexemes, few⟩ := scanFrom_eq_ok lexes
  obtain rfl : ts = us := List.append_cancel_right same
  exact ⟨lexemes, by rwa [String.length_toList] at few⟩

theorem joined_eq_ok_iff {offset : Nat} {x y : Except ForeignCharacter (List Token)}
    {us : List Token} :
    joined offset x y = .ok us ↔ ∃ ts ws, x = .ok ts ∧ y = .ok ws ∧ us = ts.dropLast ++ ws := by
  cases x with
  | error f => simp [joined, Except.bind]
  | ok ts =>
    cases y with
    | error f => simp [joined, Except.bind, following]
    | ok ws => simp [joined, Except.bind, following, eq_comm]

theorem lexes_append_iff {a b : String} (apart : Apart a.toList b.toList) (us : List Token) :
    Lexes (a ++ b) us ↔ ∃ ts ws, us = ts ++ ws ∧ Lexes a ts ∧ Lexes b ws := by
  rw [Lexes, scan_append apart, joined_eq_ok_iff]
  constructor
  · rintro ⟨xs, ys, first, second, tokens⟩
    obtain ⟨ts, rfl, left⟩ := exists_lexes first
    obtain ⟨ws, rfl, right⟩ := exists_lexes second
    rw [List.dropLast_concat, ← List.append_assoc] at tokens
    exact ⟨ts, ws, List.append_cancel_right tokens, left, right⟩
  · rintro ⟨ts, ws, rfl, left, right⟩
    exact ⟨_, _, left, right, by rw [List.dropLast_concat, List.append_assoc]⟩

theorem Lexes.append {a b : String} {ts us : List Token} (left : Lexes a ts) (right : Lexes b us)
    (apart : Apart a.toList b.toList) : Lexes (a ++ b) (ts ++ us) :=
  (lexes_append_iff apart _).mpr ⟨ts, us, rfl, left, right⟩

end Reckoner.Token
