import Reckoner.Text.Unprinted

namespace Reckoner.Text

def escapeLetter? : Char → Option Char
  | '\x00' => some '0'
  | '\t' => some 't'
  | '\r' => some 'r'
  | '\n' => some 'n'
  | '\x22' => some '\x22'
  | '\\' => some '\\'
  | _ => none

def escapeNumber (c : Char) : List Char :=
  '\\' :: 'u' :: '\x7b' :: (Nat.toDigits 16 c.toNat ++ ['\x7d'])

def quotedChar (c : Char) : List Char :=
  match escapeLetter? c with
  | some letter => ['\\', letter]
  | none => if isUnprinted c then escapeNumber c else [c]

def quoted (s : String) : String :=
  String.ofList ('\x22' :: (s.toList.flatMap quotedChar ++ ['\x22']))

variable {c d l : Char} {n m : Nat}

theorem eq_of_escapeLetter? (first : escapeLetter? c = some l) (second : escapeLetter? d = some l) :
    c = d := by
  unfold escapeLetter? at first second
  split at first <;> cases first <;> split at second <;> first | rfl | simp at second

theorem escapeLetter?_ne_u (letter : escapeLetter? c = some l) : l ≠ 'u' := by
  unfold escapeLetter? at letter
  split at letter <;> cases letter <;> decide

theorem digitChar_injective : ∀ a < 16, ∀ b < 16, Nat.digitChar a = Nat.digitChar b → a = b := by
  decide

theorem singleton_ne_toDigits_append (c d : Char) (n : Nat) : [c] ≠ Nat.toDigits 16 n ++ [d] := by
  intro h
  have split : [] ++ [c] = Nat.toDigits 16 n ++ [d] := h
  exact Nat.toDigits_ne_nil (List.append_inj' split rfl).1.symm

theorem toDigits_injective (h : Nat.toDigits 16 n = Nat.toDigits 16 m) : n = m := by
  have base : 1 < 16 := by decide
  induction n using Nat.strongRecOn generalizing m with
  | ind n ih =>
    rw [Nat.toDigits_eq_if base, Nat.toDigits_eq_if (n := m) base] at h
    split at h <;> rename_i small <;> split at h <;> rename_i small'
    · exact digitChar_injective n small m small' (List.singleton_inj.mp h)
    · exact absurd h (singleton_ne_toDigits_append _ _ _)
    · exact absurd h.symm (singleton_ne_toDigits_append _ _ _)
    · obtain ⟨fronts, lasts⟩ := List.append_inj' h rfl
      have quotients := ih (n / 16) (by omega) fronts
      have remainders := digitChar_injective (n % 16) (by omega) (m % 16) (by omega)
        (List.singleton_inj.mp lasts)
      omega

theorem mem_toDigits (digit : c ∈ Nat.toDigits 16 n) : ∃ a < 16, Nat.digitChar a = c := by
  induction n using Nat.strongRecOn with
  | ind n ih =>
    rw [Nat.toDigits_eq_if (by decide)] at digit
    split at digit
    · next small => exact ⟨n, small, (List.mem_singleton.mp digit).symm⟩
    · rcases List.mem_append.mp digit with digit | digit
      · exact ih (n / 16) (by omega) digit
      · exact ⟨n % 16, by omega, (List.mem_singleton.mp digit).symm⟩

/-- The closing brace ends a number, because it is no digit. -/
theorem toDigits_append_inj {r u : List Char}
    (h : Nat.toDigits 16 n ++ '\x7d' :: r = Nat.toDigits 16 m ++ '\x7d' :: u) : n = m ∧ r = u := by
  have apart : ∀ a < 16, Nat.digitChar a ≠ '\x7d' := by decide
  have digits (n : Nat) (r : List Char) :
      (Nat.toDigits 16 n ++ '\x7d' :: r).takeWhile (· ≠ '\x7d') = Nat.toDigits 16 n := by
    rw [List.takeWhile_append_of_pos, List.takeWhile_cons_of_neg (by simp), List.append_nil]
    intro c digit
    obtain ⟨a, small, rfl⟩ := mem_toDigits digit
    exact decide_eq_true (apart a small)
  have same : Nat.toDigits 16 n = Nat.toDigits 16 m := by
    rw [← digits n r, h, digits m u]
  obtain rfl := toDigits_injective same
  exact ⟨rfl, (List.cons.inj (List.append_cancel_left h)).2⟩

/-- What stands for a character is one of three: a letter after a backslash, a number, or the
character itself, which is then neither a quote nor a backslash. -/
theorem quotedChar_cases (c : Char) :
    (∃ l, escapeLetter? c = some l ∧ quotedChar c = ['\\', l]) ∨
      quotedChar c = escapeNumber c ∨
      (quotedChar c = [c] ∧ c ≠ '\x22' ∧ c ≠ '\\') := by
  unfold quotedChar
  cases letter : escapeLetter? c with
  | some l => exact .inl ⟨l, rfl, rfl⟩
  | none =>
    right
    dsimp only
    split
    · exact .inl rfl
    · refine .inr ⟨rfl, ?_, ?_⟩
      · rintro rfl
        cases letter
      · rintro rfl
        cases letter

/-- No character stands for the front of another one. -/
theorem quotedChar_append_inj {r u : List Char} (h : quotedChar c ++ r = quotedChar d ++ u) :
    c = d ∧ r = u := by
  rcases quotedChar_cases c with ⟨l, letter, eq⟩ | eq | ⟨eq, -, plain⟩ <;>
    rcases quotedChar_cases d with ⟨l', letter', eq'⟩ | eq' | ⟨eq', -, plain'⟩ <;>
    rw [eq, eq'] at h <;>
    simp only [escapeNumber, List.cons_append, List.nil_append, List.append_assoc,
      List.cons.injEq] at h
  -- A letter on the left: a number would have to begin with the letter `u`.
  · obtain ⟨-, rfl, rest⟩ := h
    exact ⟨eq_of_escapeLetter? letter letter', rest⟩
  · exact absurd h.2.1 (escapeLetter?_ne_u letter)
  · exact absurd h.1.symm plain'
  -- A number on the left.
  · exact absurd h.2.1.symm (escapeLetter?_ne_u letter')
  · obtain ⟨same, rest⟩ := toDigits_append_inj h.2.2.2
    exact ⟨Char.toNat_inj.mp same, rest⟩
  · exact absurd h.1.symm plain'
  -- A character that stands for itself: letters and numbers begin with a backslash.
  · exact absurd h.1 plain
  · exact absurd h.1 plain
  · exact h

theorem head_quotedChar (c : Char) (r : List Char) :
    ∃ first rest, quotedChar c ++ r = first :: rest ∧ first ≠ '\x22' := by
  rcases quotedChar_cases c with ⟨l, -, eq⟩ | eq | ⟨eq, plain, -⟩ <;> rw [eq]
  · exact ⟨'\\', _, rfl, by decide⟩
  · exact ⟨'\\', _, rfl, by decide⟩
  · exact ⟨c, r, rfl, plain⟩

/-- The closing quote ends a text, whatever stands behind it. -/
theorem flatMap_quotedChar_append_inj {s t r u : List Char}
    (h : s.flatMap quotedChar ++ '\x22' :: r = t.flatMap quotedChar ++ '\x22' :: u) :
    s = t ∧ r = u := by
  induction s generalizing t with
  | nil =>
    cases t with
    | nil => exact ⟨rfl, (List.cons.inj h).2⟩
    | cons d t =>
      rw [List.flatMap_cons, List.append_assoc] at h
      obtain ⟨first, rest, eq, apart⟩ := head_quotedChar d (t.flatMap quotedChar ++ '\x22' :: u)
      rw [eq] at h
      exact absurd (List.cons.inj h).1.symm apart
  | cons c s ih =>
    cases t with
    | nil =>
      rw [List.flatMap_cons, List.append_assoc] at h
      obtain ⟨first, rest, eq, apart⟩ := head_quotedChar c (s.flatMap quotedChar ++ '\x22' :: r)
      rw [eq] at h
      exact absurd (List.cons.inj h).1 apart
    | cons d t =>
      simp only [List.flatMap_cons, List.append_assoc] at h
      obtain ⟨rfl, others⟩ := quotedChar_append_inj h
      obtain ⟨rfl, behind⟩ := ih others
      exact ⟨rfl, behind⟩

/-- A line that quotes a text quotes only that one, and what follows is not part of it. -/
theorem quoted_append_inj {s t r u : String} (h : quoted s ++ r = quoted t ++ u) :
    s = t ∧ r = u := by
  have chars := congrArg String.toList h
  simp only [quoted, String.toList_append, String.toList_ofList, List.cons_append,
    List.append_assoc, List.nil_append] at chars
  obtain ⟨texts, rests⟩ := flatMap_quotedChar_append_inj (List.cons.inj chars).2
  exact ⟨String.toList_inj.mp texts, String.toList_inj.mp rests⟩

theorem quoted_injective {s t : String} (h : quoted s = quoted t) : s = t :=
  (quoted_append_inj (r := "") (u := "") (by rw [h])).1

theorem not_isUnprinted (lower : ' ' ≤ c) (upper : c ≤ '~') : isUnprinted c = false := by
  have apart : ∀ range ∈ unprintedRanges, range.2 < 0x20 ∨ 0x7E < range.1 := by decide +kernel
  rw [Bool.eq_false_iff, ne_eq, isUnprinted_iff]
  rintro ⟨range, member, first, last⟩
  have low : 0x20 ≤ c.toNat := lower
  have high : c.toNat ≤ 0x7E := upper
  have := apart range member
  omega

theorem escapeLetter?_eq_none (lower : ' ' ≤ c) (quote : c ≠ '\x22') (backslash : c ≠ '\\') :
    escapeLetter? c = none := by
  unfold escapeLetter?
  split <;> first | rfl | contradiction

theorem flatMap_quotedChar_of_plain {s : List Char}
    (plain : ∀ c ∈ s, ' ' ≤ c ∧ c ≤ '~' ∧ c ≠ '\x22' ∧ c ≠ '\\') : s.flatMap quotedChar = s := by
  induction s with
  | nil => rfl
  | cons c s ih =>
    obtain ⟨lower, upper, quote, backslash⟩ := plain c List.mem_cons_self
    have first : quotedChar c = [c] := by
      simp only [quotedChar, escapeLetter?_eq_none lower quote backslash,
        not_isUnprinted lower upper, Bool.false_eq_true, ↓reduceIte]
    rw [List.flatMap_cons, first, ih fun d member => plain d (List.mem_cons_of_mem _ member)]
    rfl

/-- Between the quotes a text stands as it is where all its characters are printed ones of ASCII,
quotes and backslashes excepted. -/
theorem quoted_of_plain {s : String}
    (plain : ∀ c ∈ s.toList, ' ' ≤ c ∧ c ≤ '~' ∧ c ≠ '\x22' ∧ c ≠ '\\') :
    quoted s = "\"" ++ s ++ "\"" := by
  apply String.toList_inj.mp
  simp [quoted, flatMap_quotedChar_of_plain plain]

end Reckoner.Text
