import Mathlib.Data.List.Chain
import Reckoner.Proofs.Token.Join

namespace Reckoner.Token

/-- Digits, and perhaps a point with more digits behind it. -/
inductive IsNumeral : List Char → Prop where
  | whole {ds : List Char} : IsDigits ds → IsNumeral ds
  | decimal {ds fs : List Char} : IsDigits ds → IsDigits fs → IsNumeral (ds ++ '.' :: fs)

inductive WellFormed : Token → Prop where
  | numeral {s : List Char} : IsNumeral s → WellFormed (.lexeme .numeral (String.ofList s))
  | symbol {c : Char} {kind : Kind} :
      Kind.ofSymbol? c = some kind → WellFormed (.lexeme kind (String.singleton c))

def isNumeral : Token → Bool
  | .lexeme .numeral _ => true
  | _ => false

def IsGap (gap : String) : Prop :=
  ∀ c ∈ gap.toList, Text.isBlank c = true

structure Piece where
  token : Token
  gap : String

def written : List Piece → String
  | [] => ""
  | p :: ps => p.token.display ++ p.gap ++ written ps

/-- Tokens that can be told apart when they are written out. -/
structure Spaced (pieces : List Piece) : Prop where
  wellFormed : ∀ p ∈ pieces, p.token.WellFormed
  gaps : ∀ p ∈ pieces, IsGap p.gap
  apart : pieces.IsChain fun p q =>
    p.token.isNumeral = true → q.token.isNumeral = true → p.gap ≠ ""

theorem spaced_nil : Spaced [] where
  wellFormed := by simp
  gaps := by simp
  apart := .nil

theorem spaced_cons {p : Piece} {ps : List Piece} :
    Spaced (p :: ps) ↔ p.token.WellFormed ∧ IsGap p.gap ∧ Spaced ps ∧
      ∀ q ∈ ps.head?, p.token.isNumeral = true → q.token.isNumeral = true → p.gap ≠ "" := by
  constructor
  · rintro ⟨wellFormed, gaps, apart⟩
    rw [List.forall_mem_cons] at wellFormed gaps
    rw [List.isChain_cons] at apart
    exact ⟨wellFormed.1, gaps.1, ⟨wellFormed.2, gaps.2, apart.2⟩, apart.1⟩
  · rintro ⟨wellFormed, gap, others, apart⟩
    refine ⟨?_, ?_, ?_⟩
    · exact List.forall_mem_cons.mpr ⟨wellFormed, others.wellFormed⟩
    · exact List.forall_mem_cons.mpr ⟨gap, others.gaps⟩
    · exact List.isChain_cons.mpr ⟨apart, others.apart⟩

section Characters

variable {c : Char} {kind : Kind}

theorem not_numeric_of_blank (blank : Text.isBlank c = true) :
    ¬ c.isDigit = true ∧ c ≠ '.' := by
  have apart : ∀ r ∈ Text.blankRanges, r.2 < 46 ∨ 57 < r.1 := by decide
  have point : '.'.toNat = 46 := rfl
  have zero : '0'.toNat = 48 := rfl
  have nine : '9'.toNat = 57 := rfl
  obtain ⟨r, member, within⟩ := List.any_eq_true.mp blank
  rw [Bool.and_eq_true, decide_eq_true_eq, decide_eq_true_eq] at within
  have outside := apart r member
  constructor
  · intro digit
    rw [Char.isDigit_iff_toNat] at digit
    omega
  · intro same
    subst c
    omega

theorem not_numeric_of_symbol (symbol : Kind.ofSymbol? c = some kind) :
    ¬ c.isDigit = true ∧ c ≠ '.' := by
  unfold Kind.ofSymbol? at symbol
  split at symbol
  all_goals cases symbol <;> decide

theorem not_blank_of_symbol (symbol : Kind.ofSymbol? c = some kind) : Text.isBlank c = false := by
  unfold Kind.ofSymbol? at symbol
  split at symbol
  all_goals cases symbol <;> decide

theorem ofSymbol?_of_blank (blank : Text.isBlank c = true) : Kind.ofSymbol? c = none := by
  cases symbol : Kind.ofSymbol? c with
  | none => rfl
  | some kind =>
    rw [not_blank_of_symbol symbol] at blank
    contradiction

theorem ne_numeral_of_symbol (symbol : Kind.ofSymbol? c = some kind) : kind ≠ .numeral := by
  unfold Kind.ofSymbol? at symbol
  split at symbol
  all_goals cases symbol <;> decide

theorem isNumeral_of_symbol (symbol : Kind.ofSymbol? c = some kind) (text : String) :
    isNumeral (.lexeme kind text) = false := by
  have other := ne_numeral_of_symbol symbol
  cases kind with
  | numeral => contradiction
  | plus | minus | times | divide | leftParen | rightParen => rfl

end Characters

namespace IsNumeral

variable {s : List Char}

theorem longest (numeral : IsNumeral s) : LongestNumeral s [] := by
  cases numeral with
  | whole digits =>
    apply LongestNumeral.whole digits not_digitFirst_nil
    intro r same
    contradiction
  | decimal digits fraction => exact .decimal digits fraction not_digitFirst_nil

theorem digitFirst (numeral : IsNumeral s) (rest : List Char) : DigitFirst (s ++ rest) := by
  cases numeral with
  | whole digits => exact digits.digitFirst rest
  | @decimal ds fs digits fraction =>
    rw [List.append_assoc]
    exact digits.digitFirst ('.' :: fs ++ rest)

theorem numeric (numeral : IsNumeral s) {c : Char} (member : c ∈ s) :
    c.isDigit = true ∨ c = '.' := by
  cases numeral with
  | whole digits => exact .inl (digits.2 c member)
  | decimal digits fraction =>
    rcases List.mem_append.mp member with before | after
    · exact .inl (digits.2 c before)
    · rcases List.mem_cons.mp after with point | after
      · exact .inr point
      · exact .inl (fraction.2 c after)

end IsNumeral

theorem LongestNumeral.isNumeral {numeral rest : List Char}
    (longest : LongestNumeral numeral rest) : IsNumeral numeral := by
  cases longest with
  | whole digits => exact .whole digits
  | decimal digits fraction => exact .decimal digits fraction

theorem LongestNumeral.not_digitFirst {numeral rest : List Char}
    (longest : LongestNumeral numeral rest) : ¬ DigitFirst rest := by
  cases longest with
  | whole _ stops => exact stops
  | decimal _ _ stops => exact stops

namespace WellFormed

variable {t : Token}

theorem digitFirst (wellFormed : t.WellFormed) (numeral : t.isNumeral = true) (rest : List Char) :
    DigitFirst (t.display.toList ++ rest) := by
  cases wellFormed with
  | numeral form =>
    rw [display, String.toList_ofList]
    exact form.digitFirst rest
  | symbol symbol =>
    rw [isNumeral_of_symbol symbol] at numeral
    contradiction

/-- A token that is no numeral is one character that belongs to none. -/
theorem eq_singleton (wellFormed : t.WellFormed) (other : t.isNumeral = false) :
    ∃ c, t.display.toList = [c] ∧ ¬ c.isDigit = true ∧ c ≠ '.' := by
  cases wellFormed with
  | numeral => contradiction
  | @symbol c kind symbol => exact ⟨c, String.toList_singleton c, not_numeric_of_symbol symbol⟩

theorem lexes (wellFormed : t.WellFormed) : Lexes t.display [t] := by
  unfold Lexes scan
  cases wellFormed with
  | @numeral s numeral =>
    have split := splitNumeral_of_longest numeral.longest
    obtain ⟨c, first, digit⟩ := numeral.digitFirst []
    rw [List.append_nil] at split first
    cases s with
    | nil => contradiction
    | cons d s =>
      cases first
      rw [display, String.toList_ofList, scanFrom, if_pos digit, split, scanFrom]
      rfl
  | @symbol c kind symbol =>
    have other := (not_numeric_of_symbol symbol).1
    rw [display, String.toList_singleton]
    simp only [scanFrom, other, symbol, Bool.false_eq_true, if_false]
    rfl

end WellFormed

theorem lexes_symbol {c : Char} {kind : Kind} (symbol : Kind.ofSymbol? c = some kind) :
    Lexes (String.singleton c) [.lexeme kind (String.singleton c)] := by
  have wellFormed := WellFormed.symbol symbol
  exact wellFormed.lexes

theorem lexes_numeral {text : String} (numeral : IsNumeral text.toList) :
    Lexes text [.lexeme .numeral text] := by
  have wellFormed := WellFormed.numeral numeral
  rw [String.ofList_toList] at wellFormed
  exact wellFormed.lexes

theorem WellFormed.isNumeral_toList {text : String}
    (wellFormed : WellFormed (.lexeme .numeral text)) : IsNumeral text.toList := by
  generalize same : Token.lexeme .numeral text = t at wellFormed
  cases wellFormed with
  | numeral numeral =>
    cases same
    rwa [String.toList_ofList]
  | symbol symbol =>
    cases same
    exact absurd rfl (ne_numeral_of_symbol symbol)

theorem scanFrom_of_blank (position : Nat) (scanned : List Token) {s : List Char}
    (blank : ∀ c ∈ s, Text.isBlank c = true) :
    scanFrom position scanned s = .ok (.endOfInput :: scanned).reverse := by
  induction s generalizing position with
  | nil => rw [scanFrom]
  | cons c s ih =>
    rw [List.forall_mem_cons] at blank
    have other := (not_numeric_of_blank blank.1).1
    simp only [scanFrom, other, ofSymbol?_of_blank blank.1, blank.1, Bool.false_eq_true, if_false,
      if_true]
    exact ih _ blank.2

theorem IsGap.lexes {gap : String} (blank : IsGap gap) : Lexes gap [] :=
  scanFrom_of_blank 0 [] blank

theorem isGap_empty : IsGap "" := by
  intro c member
  simp at member

theorem isGap_singleton {c : Char} (blank : Text.isBlank c = true) : IsGap (String.singleton c) := by
  intro d member
  obtain rfl : d = c := by simpa using member
  exact blank

theorem isGap_blank : IsGap " " :=
  isGap_singleton (c := ' ') rfl

theorem lexes_empty : Lexes "" [] :=
  isGap_empty.lexes

theorem IsGap.apart_left {gap : String} (blank : IsGap gap) (s : List Char) :
    Apart s gap.toList := by
  apply apart_of_head
  intro c first
  exact not_numeric_of_blank (blank c (List.mem_of_mem_head? first))

theorem IsGap.apart_right {gap : String} (blank : IsGap gap) (some : gap ≠ "") (s t : List Char) :
    Apart (s ++ gap.toList) t := by
  apply apart_of_last
  intro c last
  have nonempty : gap.toList ≠ [] := fun none => some (String.toList_eq_nil_iff.mp none)
  rw [List.getLast?_append, List.getLast?_eq_some_getLast nonempty] at last
  cases last
  exact not_numeric_of_blank (blank _ (List.getLast_mem nonempty))

section Append

variable {a b gap : String} {ts us : List Token}

theorem Lexes.append_gap (left : Lexes a ts) (blank : IsGap gap) : Lexes (a ++ gap) ts := by
  have whole := left.append blank.lexes (blank.apart_left _)
  rwa [List.append_nil] at whole

theorem Lexes.append_spaced (left : Lexes a ts) (right : Lexes b us) :
    Lexes (a ++ " " ++ b) (ts ++ us) := by
  apply (left.append_gap isGap_blank).append right
  rw [String.toList_append]
  exact isGap_blank.apart_right (by decide) _ _

end Append

theorem Spaced.lexes {pieces : List Piece} (spaced : Spaced pieces) :
    Lexes (written pieces) (pieces.map Piece.token) := by
  induction pieces with
  | nil => exact lexes_empty
  | cons p ps ih =>
    obtain ⟨wellFormed, blank, others, between⟩ := spaced_cons.mp spaced
    apply (wellFormed.lexes.append_gap blank).append (ih others)
    rw [String.toList_append]
    by_cases none : p.gap = ""
    · -- one of the two tokens that meet here is a symbol, or there is no second one
      rw [none, String.toList_empty, List.append_nil]
      cases numeral : p.token.isNumeral with
      | false =>
        obtain ⟨c, single, other⟩ := wellFormed.eq_singleton numeral
        apply apart_of_last
        intro d last
        rw [single] at last
        cases last
        exact other
      | true =>
        apply apart_of_head
        intro d first
        cases ps with
        | nil => contradiction
        | cons q ps =>
          have next := (spaced_cons.mp others).1
          have other : q.token.isNumeral = false := by
            apply Bool.eq_false_iff.mpr
            intro both
            exact between q rfl numeral both none
          obtain ⟨c, single, other⟩ := next.eq_singleton other
          rw [written, String.toList_append, String.toList_append, single] at first
          cases first
          exact other
    · exact blank.apart_right none _ _

theorem exists_spaced_of_scanFrom {position : Nat} {scanned us : List Token} {s : List Char}
    (h : scanFrom position scanned s = .ok us) :
    ∃ gap pieces, IsGap gap ∧ Spaced pieces ∧ String.ofList s = gap ++ written pieces ∧
      us = scanned.reverse ++ pieces.map Piece.token ++ [.endOfInput] := by
  fun_induction scanFrom position scanned s with
  | case1 =>
    cases h
    exact ⟨"", [], isGap_empty, spaced_nil, rfl, by simp⟩
  | case2 position scanned c s digit numeral =>
    rename_i ih
    obtain ⟨gap, pieces, blank, spaced, rest, rfl⟩ := ih h
    have split := splitNumeral_append (c :: s)
    have longest := splitNumeral_longest (digitFirst_cons (s := s).mpr digit)
    have stops := longest.not_digitFirst
    refine ⟨"", ⟨.lexeme .numeral (String.ofList numeral), gap⟩ :: pieces, isGap_empty, ?_, ?_,
      by simp⟩
    · refine spaced_cons.mpr ⟨.numeral longest.isNumeral, blank, spaced, ?_⟩
      intro q next _ both none
      -- without a gap, the next numeral would have belonged to this one
      cases pieces with
      | nil => contradiction
      | cons p ps =>
        cases next
        have characters := congrArg String.toList rest
        simp only at none
        rw [String.toList_ofList, none, String.empty_append, written, String.append_assoc,
          String.toList_append] at characters
        rw [characters] at stops
        exact stops ((spaced_cons.mp spaced).1.digitFirst both _)
    · rw [← split, String.ofList_append, rest, written, display, String.empty_append,
        String.append_assoc]
  | case3 position scanned c s other kind symbol ih =>
    obtain ⟨gap, pieces, blank, spaced, rest, rfl⟩ := ih h
    refine ⟨"", ⟨.lexeme kind (String.singleton c), gap⟩ :: pieces, isGap_empty, ?_, ?_, by simp⟩
    · refine spaced_cons.mpr ⟨.symbol symbol, blank, spaced, ?_⟩
      intro q _ numeral
      rw [isNumeral_of_symbol symbol] at numeral
      contradiction
    · rw [← List.singleton_append, String.ofList_append, rest, written, display,
        String.empty_append, String.append_assoc, String.singleton_eq_ofList]
  | case4 position scanned c s other noSymbol blankHere ih =>
    obtain ⟨gap, pieces, blank, spaced, rest, rfl⟩ := ih h
    refine ⟨String.singleton c ++ gap, pieces, ?_, spaced, ?_, rfl⟩
    · intro d member
      rw [String.toList_append, String.toList_singleton, List.singleton_append,
        List.mem_cons] at member
      rcases member with same | member
      · subst d
        exact blankHere
      · exact blank d member
    · rw [← List.singleton_append, String.ofList_append, rest, String.append_assoc,
        String.singleton_eq_ofList]
  | case5 => contradiction

theorem lexes_iff_written {text : String} {ts : List Token} :
    Lexes text ts ↔ ∃ gap pieces, IsGap gap ∧ Spaced pieces ∧ text = gap ++ written pieces ∧
      ts = pieces.map Piece.token := by
  constructor
  · intro lexes
    obtain ⟨gap, pieces, blank, spaced, whole, tokens⟩ := exists_spaced_of_scanFrom lexes
    rw [String.ofList_toList] at whole
    exact ⟨gap, pieces, blank, spaced, whole, List.append_cancel_right tokens⟩
  · rintro ⟨gap, pieces, blank, spaced, whole, tokens⟩
    rw [whole, tokens]
    apply blank.lexes.append spaced.lexes
    apply apart_of_last
    intro c last
    exact not_numeric_of_blank (blank c (List.mem_of_mem_getLast? last))

theorem Lexes.wellFormed {text : String} {ts : List Token} (lexes : Lexes text ts) :
    ∀ t ∈ ts, t.WellFormed := by
  obtain ⟨gap, pieces, _, spaced, _, rfl⟩ := lexes_iff_written.mp lexes
  intro t member
  obtain ⟨p, held, rfl⟩ := List.mem_map.mp member
  exact spaced.wellFormed p held

end Reckoner.Token
