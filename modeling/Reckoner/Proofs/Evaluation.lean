import Reckoner.Desk.Basic
import Reckoner.Proofs.Expr.Agreement
import Reckoner.Proofs.Token.Join

namespace Reckoner

open Token (Lexes)

/-- The end of input after the tokens of a text is no part of what is derived. -/
theorem ofTokens_of_lexes {limit : Nat} {text : String} {ts : List Token} {tree : Expr}
    (lexes : Lexes text ts) :
    Expr.ofTokens limit (ts ++ [.endOfInput]) = .ok tree ↔
      Expr.IsSum ts tree ∧ tree.depth ≤ limit := by
  have content : Token.content (ts ++ [.endOfInput]) = ts :=
    Expr.content_append lexes.lexemes.1 (by simp [Expr.AtEnd])
  constructor
  · intro read
    have facts := Expr.derived_of_ofTokens read
    rwa [content] at facts
  · rintro ⟨derived, within⟩
    rw [← content] at derived
    exact Expr.ofTokens_of_derived derived within

theorem evaluate_of_scan {limit : Nat} {text : String} {us : List Token}
    (scanned : Token.scan text = .ok us) :
    evaluate limit text = ((Expr.ofTokens limit us).mapError .malformed).map Expr.value := by
  unfold evaluate evaluateTraced
  rw [scanned]
  cases read : Expr.ofTokens limit us with
  | error fault =>
    simp only [read]
    rfl
  | ok tree =>
    simp only [read]
    rfl

/-- A text has a value if its tokens form a sum within the limit, and it is the value of that. -/
theorem evaluate_eq_ok_iff {limit : Nat} {text : String} {x : Float} :
    evaluate limit text = .ok x ↔ ∃ ts tree, Lexes text ts ∧ Expr.IsSum ts tree ∧
      tree.depth ≤ limit ∧ tree.value = x := by
  unfold evaluate evaluateTraced
  constructor
  · intro h
    cases scanned : Token.scan text with
    | error f =>
      rw [scanned] at h
      contradiction
    | ok us =>
      rw [scanned] at h
      obtain ⟨ts, rfl, lexes⟩ := Token.exists_lexes scanned
      cases read : Expr.ofTokens limit (ts ++ [.endOfInput]) with
      | error fault =>
        simp [read] at h
      | ok tree =>
        obtain ⟨derived, within⟩ := (ofTokens_of_lexes lexes).mp read
        have same : tree.value = x := by simpa [read] using h
        exact ⟨ts, tree, lexes, derived, within, same⟩
  · rintro ⟨ts, tree, lexes, derived, within, rfl⟩
    have read := (ofTokens_of_lexes lexes).mpr ⟨derived, within⟩
    rw [lexes]
    simp only [read]

theorem evaluate_of_derived {limit : Nat} {text : String} {ts : List Token} {tree : Expr}
    (lexes : Lexes text ts) (derived : Expr.IsSum ts tree) (room : text.length ≤ limit) :
    evaluate limit text = .ok tree.value := by
  have deep := derived.depth_le
  have few := lexes.lexemes.2
  exact evaluate_eq_ok_iff.mpr ⟨ts, tree, lexes, derived, by omega, rfl⟩

end Reckoner
