import Reckoner.Proofs.Evaluation
import Reckoner.Proofs.Token.Balance
import Reckoner.Proofs.Token.Written

namespace Reckoner

namespace Expr

open Token (Balanced enclosed)

theorem closed_balanced :
    Closed (fun ts _ => Balanced ts) (fun ts _ => Balanced ts) (fun ts _ => Balanced ts) where
  sum_single balanced := balanced
  sum_next left operator right := left.join (Token.opening_of_additive operator) right
  product_single balanced := balanced
  product_next left operator right := left.join (Token.opening_of_multiplicative operator) right
  number _ := Token.balanced_nil.cons rfl
  plus balanced := balanced.cons rfl
  minus balanced := balanced.cons rfl
  group balanced := balanced.group

theorem IsSum.unique {ts : List Token} {t u : Expr} (first : IsSum ts t) (second : IsSum ts u) :
    t = u := by
  have content : Token.content ts = ts := by
    have atEnd : AtEnd [] := by simp [AtEnd]
    have whole := content_append first.endOfInput_not_mem atEnd
    rwa [List.append_nil] at whole
  rw [← content] at first second
  have readFirst := ofTokens_of_derived first (Nat.le_max_left t.depth u.depth)
  have readSecond := ofTokens_of_derived second (Nat.le_max_right t.depth u.depth)
  exact Except.ok.inj (readFirst.symm.trans readSecond)

/-- The tokens are derived, and are still if in one place the tokens in parentheses are replaced,
with a tree of the same value. -/
structure Replaces (ss us : List Token) (G : List Token → Expr → Prop) (ts : List Token)
    (t : Expr) : Prop where
  balanced : Balanced ts
  derived : G ts t
  replaced : ∀ front back, ts = front ++ enclosed ss ++ back →
    ∃ t', G (front ++ enclosed us ++ back) t' ∧ t'.value = t.value

section Replaces

variable {ss us : List Token} {G C : List Token → Expr → Prop}

theorem Replaces.single {ts : List Token} {t : Expr} (replaces : Replaces ss us G ts t)
    (single : ∀ {ts : List Token} {t : Expr}, G ts t → C ts t) : Replaces ss us C ts t where
  balanced := replaces.balanced
  derived := single replaces.derived
  replaced front back split := by
    obtain ⟨t', derived, same⟩ := replaces.replaced front back split
    exact ⟨t', single derived, same⟩

theorem Replaces.next {ls rs : List Token} {t : Token} {l r : Expr} {operator : Operator}
    (left : Replaces ss us C ls l) (right : Replaces ss us G rs r) (inside : Balanced ss)
    (flat : t.opening = 0)
    (next : ∀ {ls rs : List Token} {l r : Expr}, C ls l → G rs r →
      C (ls ++ t :: rs) (.binary l operator r)) :
    Replaces ss us C (ls ++ t :: rs) (.binary l operator r) where
  balanced := left.balanced.join flat right.balanced
  derived := next left.derived right.derived
  replaced front back split := by
    rcases left.balanced.join_split inside flat split with ⟨w, hole, rfl⟩ | ⟨w, rfl, hole⟩
    · obtain ⟨l', derived, same⟩ := left.replaced front w hole
      refine ⟨.binary l' operator r, ?_, ?_⟩
      · rw [← List.append_assoc]
        exact next derived right.derived
      · rw [value, same, value]
    · obtain ⟨r', derived, same⟩ := right.replaced w back hole
      refine ⟨.binary l operator r', ?_, ?_⟩
      · have whole := next left.derived derived
        simpa using whole
      · rw [value, same, value]

theorem Replaces.signed {ts : List Token} {t : Expr} {sign : Sign} {first : Token}
    (replaces : Replaces ss us IsOperand ts t) (flat : first.opening = 0)
    (signed : ∀ {ts : List Token} {t : Expr}, IsOperand ts t →
      IsOperand (first :: ts) (.signed sign t)) :
    Replaces ss us IsOperand (first :: ts) (.signed sign t) where
  balanced := replaces.balanced.cons flat
  derived := signed replaces.derived
  replaced front back split := by
    cases front with
    | nil =>
      cases split
      contradiction
    | cons other front =>
      obtain ⟨rfl, hole⟩ := List.cons.inj split
      obtain ⟨t', derived, same⟩ := replaces.replaced front back hole
      exact ⟨.signed sign t', signed derived, by rw [value, same, value]⟩

theorem Replaces.number {text : String} {x : Float} (readable : Number.read? text = some x) :
    Replaces ss us IsOperand [.lexeme .numeral text] (.number x) where
  balanced := Token.balanced_nil.cons rfl
  derived := .number readable
  replaced front back split := by
    have tokens := congrArg List.length split
    simp [enclosed] at tokens
    omega

theorem Replaces.group {left right : String} {ts : List Token} {t s u : Expr}
    (replaces : Replaces ss us IsSum ts t) (replacedSum : IsSum ss s) (other : IsSum us u)
    (same : s.value = u.value) :
    Replaces ss us IsOperand (.lexeme .leftParen left :: ts ++ [.lexeme .rightParen right])
      (.group t) where
  balanced := replaces.balanced.group
  derived := .group replaces.derived
  replaced front back split := by
    rcases replaces.balanced.group_split (closed_balanced.sum replacedSum) split with
      ⟨rfl, rfl, rfl⟩ | ⟨v, w, rfl, rfl, hole⟩
    · obtain rfl := replaces.derived.unique replacedSum
      exact ⟨.group u, by simpa [enclosed] using IsOperand.group other, by rw [value, value, same]⟩
    · obtain ⟨t', derived, equal⟩ := replaces.replaced v w hole
      refine ⟨.group t', ?_, by rw [value, equal, value]⟩
      have whole : IsOperand (.lexeme .leftParen left :: (v ++ enclosed us ++ w) ++
          [.lexeme .rightParen right]) (.group t') := .group derived
      simpa using whole

theorem closed_replaces {s u : Expr} (sum : IsSum ss s) (other : IsSum us u)
    (same : s.value = u.value) :
    Closed (Replaces ss us IsSum) (Replaces ss us IsProduct) (Replaces ss us IsOperand) where
  sum_single replaces := replaces.single .single
  sum_next left operator right :=
    left.next right (closed_balanced.sum sum) (Token.opening_of_additive operator)
      fun ls rs => .next ls operator rs
  product_single replaces := replaces.single .single
  product_next left operator right :=
    left.next right (closed_balanced.sum sum) (Token.opening_of_multiplicative operator)
      fun ls rs => .next ls operator rs
  number := .number
  plus replaces := replaces.signed rfl .plus
  minus replaces := replaces.signed rfl .minus
  group replaces := replaces.group sum other same

end Replaces

end Expr

open Token (Lexes lexes_append_iff enclosed)

theorem lexes_enclosed_iff (a s b : String) (us : List Token) :
    Lexes (a ++ "(" ++ s ++ ")" ++ b) us ↔ ∃ front ss back,
      us = front ++ enclosed ss ++ back ∧ Lexes a front ∧ Lexes s ss ∧ Lexes b back := by
  have opens : Token.Apart a.toList "(".toList := Token.apart_of_head (by simp)
  have opened : Token.Apart (a ++ "(").toList s.toList := Token.apart_of_last (by simp)
  have closes : Token.Apart (a ++ "(" ++ s).toList ")".toList := Token.apart_of_head (by simp)
  have closed : Token.Apart (a ++ "(" ++ s ++ ")").toList b.toList := by
    apply Token.apart_of_last
    rw [String.toList_append, List.getLast?_append]
    simp
  have lexesLeft : Lexes "(" [.lexeme .leftParen "("] := Token.lexes_symbol (c := '(') rfl
  have lexesRight : Lexes ")" [.lexeme .rightParen ")"] := Token.lexes_symbol (c := ')') rfl
  constructor
  · intro lexes
    obtain ⟨_, back, rfl, lexes, lexesBack⟩ := (lexes_append_iff closed us).mp lexes
    obtain ⟨_, right, rfl, lexes, isRight⟩ := (lexes_append_iff closes _).mp lexes
    obtain ⟨_, ss, rfl, lexes, lexesInside⟩ := (lexes_append_iff opened _).mp lexes
    obtain ⟨front, left, rfl, lexesFront, isLeft⟩ := (lexes_append_iff opens _).mp lexes
    obtain rfl := isLeft.unique lexesLeft
    obtain rfl := isRight.unique lexesRight
    exact ⟨front, ss, back, by simp [enclosed], lexesFront, lexesInside, lexesBack⟩
  · rintro ⟨front, ss, back, rfl, lexesFront, lexesInside, lexesBack⟩
    have lexes := (lexes_append_iff opens _).mpr ⟨front, _, rfl, lexesFront, lexesLeft⟩
    have lexes := (lexes_append_iff opened _).mpr ⟨_, ss, rfl, lexes, lexesInside⟩
    have lexes := (lexes_append_iff closes _).mpr ⟨_, _, rfl, lexes, lexesRight⟩
    exact (lexes_append_iff closed _).mpr ⟨_, back, by simp [enclosed], lexes, lexesBack⟩

/-- A text in parentheses may be replaced by another one of the same value, whatever text is around
them; and parentheses around a whole text do not change its value. -/
theorem evaluate_replace :
    (∀ (a b s t : String) (x v : Float) (limitS limitT limit : Nat),
      evaluate limitS s = .ok x → evaluate limitT t = .ok x →
      evaluate limit (a ++ "(" ++ s ++ ")" ++ b) = .ok v →
      ∀ room, (a ++ "(" ++ t ++ ")" ++ b).length ≤ room →
        evaluate room (a ++ "(" ++ t ++ ")" ++ b) = .ok v) ∧
      ∀ (s : String) (x : Float) (limit : Nat), evaluate limit s = .ok x →
        ∀ room, ("(" ++ s ++ ")").length ≤ room → evaluate room ("(" ++ s ++ ")") = .ok x := by
  constructor
  · intro a b s t x v limitS limitT limit first second whole room enough
    obtain ⟨ss, tree, lexesS, derivedS, _, rfl⟩ := evaluate_eq_ok_iff.mp first
    obtain ⟨us, other, lexesT, derivedT, _, same⟩ := evaluate_eq_ok_iff.mp second
    obtain ⟨_, whole, lexes, derived, _, rfl⟩ := evaluate_eq_ok_iff.mp whole
    obtain ⟨front, inside, back, rfl, lexesA, lexesInside, lexesB⟩ :=
      (lexes_enclosed_iff a s b _).mp lexes
    obtain rfl := lexesInside.unique lexesS
    have replaces := (Expr.closed_replaces derivedS derivedT same.symm).sum derived
    obtain ⟨replaced, derived, same⟩ := replaces.replaced front back rfl
    have lexes := (lexes_enclosed_iff a t b _).mpr ⟨front, us, back, rfl, lexesA, lexesT, lexesB⟩
    rw [← same]
    exact evaluate_of_derived lexes derived enough
  · intro s x limit alone room enough
    obtain ⟨ss, tree, lexes, derived, _, rfl⟩ := evaluate_eq_ok_iff.mp alone
    have empty : Lexes "" [] := by
      unfold Lexes
      decide +kernel
    have lexes := (lexes_enclosed_iff "" s "" _).mpr ⟨[], ss, [], rfl, empty, lexes, empty⟩
    rw [String.empty_append, String.append_empty] at lexes
    have group : Expr.IsOperand (enclosed ss) (.group tree) := .group derived
    have sum : Expr.IsSum ([] ++ enclosed ss ++ []) (.group tree) := by
      rw [List.nil_append, List.append_nil]
      exact .single (.single group)
    have evaluated := evaluate_of_derived lexes sum enough
    rwa [Expr.value] at evaluated

/-- The value of `8-(3)*2` stays if `0-2+5` is written for `3`. -/
theorem evaluate_replace_three :
    evaluate 1 "3" = .ok 3 ∧ evaluate 3 "0-2+5" = .ok 3 ∧
      evaluate 4 ("8-" ++ "(" ++ "3" ++ ")" ++ "*2") = .ok 2 ∧
      evaluate 11 ("8-" ++ "(" ++ "0-2+5" ++ ")" ++ "*2") = .ok 2 ∧
      evaluate 7 ("(" ++ "0-2+5" ++ ")") = .ok 3 := by
  have numeral : evaluate 1 "3" = .ok 3 := by decide +kernel
  have sum : evaluate 3 "0-2+5" = .ok 3 := by decide +kernel
  have whole : evaluate 4 ("8-" ++ "(" ++ "3" ++ ")" ++ "*2") = .ok 2 := by decide +kernel
  obtain ⟨replaced, alone⟩ := evaluate_replace
  refine ⟨numeral, sum, whole, ?_, ?_⟩
  · exact replaced "8-" "*2" "3" "0-2+5" 3 2 1 3 4 numeral sum whole 11 (by decide)
  · exact alone "0-2+5" 3 3 sum 7 (by decide)

end Reckoner
