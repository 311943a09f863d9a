import Mathlib.Logic.Relation
import Reckoner.Proofs.Evaluation
import Reckoner.Proofs.Token.Written

namespace Reckoner

namespace Token

theorem scan_append_gap {a gap : String} (blank : IsGap gap) : scan (a ++ gap) = scan a := by
  have scanned : scan gap = .ok [.endOfInput] := blank.lexes
  rw [scan_append (blank.apart_left _), scanned]
  cases first : scan a with
  | error f => rfl
  | ok us =>
    obtain ⟨ts, rfl, _⟩ := exists_lexes first
    simp [joined, Except.bind, following]

/-- Two pieces of text with white space between them, some of which stands there if a numeral could
go through. -/
theorem scan_pieces {a gap b : String} (blank : IsGap gap)
    (apart : gap ≠ "" ∨ a = "" ∨ b = "" ∨ Apart a.toList b.toList) :
    scan (a ++ gap ++ b) = joined (a.utf8ByteSize + gap.utf8ByteSize) (scan a) (scan b) := by
  have seam : Apart (a ++ gap).toList b.toList := by
    by_cases none : gap = ""
    · rw [none, String.append_empty]
      rcases apart with some | rfl | rfl | apart
      · exact absurd none some
      · exact apart_of_last (by simp)
      · exact apart_of_head (by simp)
      · exact apart
    · rw [String.toList_append]
      exact blank.apart_right none _ _
  rw [scan_append seam, scan_append_gap blank, String.utf8ByteSize_append]

/-- The second text has white space where the first one has none, in a place that no numeral goes
through. -/
def Widened (s t : String) : Prop :=
  ∃ a gap b, IsGap gap ∧ Apart a.toList b.toList ∧ s = a ++ b ∧ t = a ++ gap ++ b

theorem Widened.scan_eq_ok_iff {s t : String} (widened : Widened s t) (us : List Token) :
    scan s = .ok us ↔ scan t = .ok us := by
  obtain ⟨a, gap, b, blank, apart, rfl, rfl⟩ := widened
  rw [scan_append apart, scan_pieces blank (.inr (.inr (.inr apart))), joined_eq_ok_iff,
    joined_eq_ok_iff]

theorem scan_eq_ok_iff_of_respaced {s t : String} (respaced : Relation.EqvGen Widened s t)
    (us : List Token) : scan s = .ok us ↔ scan t = .ok us := by
  induction respaced with
  | rel s t widened => exact widened.scan_eq_ok_iff us
  | refl s => exact Iff.rfl
  | symm s t _ ih => exact ih.symm
  | trans s t u _ _ first second => exact first.trans second

/-- The tokens of two pieces of text follow one another over white space, and a foreign character in
either is blamed at its place in the whole. White space in places that no numeral goes through can
come and go without an effect on the tokens of a text, or on its value or fault. -/
theorem scan_respaced :
    (∀ a gap b : String, IsGap gap →
      (gap ≠ "" ∨ a = "" ∨ b = "" ∨ Apart a.toList b.toList) →
        (∀ f, scan a = .error f → scan (a ++ gap ++ b) = .error f) ∧
        (∀ us f, scan a = .ok us → scan b = .error f →
          scan (a ++ gap ++ b) =
            .error ⟨f.character, a.utf8ByteSize + gap.utf8ByteSize + f.position⟩) ∧
        ∀ us ws, scan a = .ok us → scan b = .ok ws →
          ∃ ts, us = ts ++ [.endOfInput] ∧ .endOfInput ∉ ts ∧
            scan (a ++ gap ++ b) = .ok (ts ++ ws)) ∧
      ∀ s t, Relation.EqvGen Widened s t →
        (∀ us, scan s = .ok us ↔ scan t = .ok us) ∧
          ((∃ us, scan s = .ok us) → ∀ limit, evaluate limit s = evaluate limit t) := by
  constructor
  · intro a gap b blank apart
    have whole := scan_pieces blank apart
    refine ⟨?_, ?_, ?_⟩
    · intro f failed
      rw [whole, failed]
      rfl
    · intro us f scanned failed
      rw [whole, scanned, failed]
      rfl
    · intro us ws first second
      obtain ⟨ts, rfl, lexes⟩ := exists_lexes first
      refine ⟨ts, rfl, lexes.lexemes.1, ?_⟩
      rw [whole, joined_eq_ok_iff]
      exact ⟨_, ws, first, second, by rw [List.dropLast_concat]⟩
  · intro s t respaced
    have same := scan_eq_ok_iff_of_respaced respaced
    refine ⟨same, ?_⟩
    rintro ⟨us, scanned⟩ limit
    rw [evaluate_of_scan scanned, evaluate_of_scan ((same us).mp scanned)]

/-- Behind `1.5` and a blank of three bytes, the point of `.2` is still foreign, six bytes on; and the
blank before a plus sign can as well stand behind it. -/
theorem scan_respaced_point :
    scan "1.5\u3000.2" = .error ⟨'.', 6⟩ ∧
      Relation.EqvGen Widened "1 +2" "1+ 2" ∧
      (∀ us, scan "1 +2" = .ok us ↔ scan "1+ 2" = .ok us) ∧
      ∀ limit, evaluate limit "1 +2" = evaluate limit "1+ 2" := by
  obtain ⟨pieces, respaced⟩ := scan_respaced
  have blank : IsGap "\u3000" := isGap_singleton (c := '\u3000') rfl
  have first : scan "1.5" = .ok [.lexeme .numeral "1.5", .endOfInput] := by decide +kernel
  have second : scan ".2" = .error ⟨'.', 0⟩ := by decide +kernel
  have before : Widened "1+2" "1 +2" :=
    ⟨"1", " ", "+2", isGap_blank, apart_of_head (by simp), rfl, rfl⟩
  have behind : Widened "1+2" "1+ 2" :=
    ⟨"1+", " ", "2", isGap_blank, apart_of_last (by simp), rfl, rfl⟩
  have both : Relation.EqvGen Widened "1 +2" "1+ 2" :=
    .trans _ _ _ (.symm _ _ (.rel _ _ before)) (.rel _ _ behind)
  have scanned : ∃ us, scan "1 +2" = .ok us :=
    ⟨[.lexeme .numeral "1", .lexeme .plus "+", .lexeme .numeral "2", .endOfInput],
      by decide +kernel⟩
  obtain ⟨_, blamed, _⟩ := pieces "1.5" "\u3000" ".2" blank (.inl (by decide))
  obtain ⟨tokens, values⟩ := respaced _ _ both
  exact ⟨blamed _ _ first second, both, tokens, values scanned⟩

end Token

end Reckoner
