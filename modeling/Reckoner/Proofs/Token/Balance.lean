import Mathlib.Data.List.Basic
import Reckoner.Token.Basic

namespace Reckoner.Token

def opening : Token → Int
  | .lexeme .leftParen _ => 1
  | .lexeme .rightParen _ => -1
  | _ => 0

def openings : List Token → Int
  | [] => 0
  | t :: ts => t.opening + openings ts

@[simp] theorem openings_nil : openings [] = 0 :=
  rfl

@[simp] theorem openings_cons (t : Token) (ts : List Token) :
    openings (t :: ts) = t.opening + openings ts :=
  rfl

@[simp] theorem openings_append (ts us : List Token) :
    openings (ts ++ us) = openings ts + openings us := by
  induction ts with
  | nil => simp
  | cons t ts ih =>
    rw [List.cons_append, openings_cons, openings_cons, ih]
    omega

theorem opening_of_additive {t : Token} {operator : Operator}
    (additive : t.additive? = some operator) : t.opening = 0 := by
  match t with
  | .lexeme .plus _ | .lexeme .minus _ => rfl
  | .endOfInput | .lexeme .times _ | .lexeme .divide _ | .lexeme .numeral _
  | .lexeme .leftParen _ | .lexeme .rightParen _ => contradiction

theorem opening_of_multiplicative {t : Token} {operator : Operator}
    (multiplicative : t.multiplicative? = some operator) : t.opening = 0 := by
  match t with
  | .lexeme .times _ | .lexeme .divide _ => rfl
  | .endOfInput | .lexeme .plus _ | .lexeme .minus _ | .lexeme .numeral _
  | .lexeme .leftParen _ | .lexeme .rightParen _ => contradiction

/-- No parenthesis is closed that was not opened before, and none is left open. -/
structure Balanced (ts : List Token) : Prop where
  settled : openings ts = 0
  within : ∀ front back, ts = front ++ back → 0 ≤ openings front

theorem balanced_nil : Balanced [] where
  settled := rfl
  within front back split := by
    obtain ⟨rfl, _⟩ := List.append_eq_nil_iff.mp split.symm
    exact Int.le_refl 0

theorem Balanced.join {ls rs : List Token} {t : Token} (left : Balanced ls) (flat : t.opening = 0)
    (right : Balanced rs) : Balanced (ls ++ t :: rs) where
  settled := by
    rw [openings_append, openings_cons, left.settled, flat, right.settled]
    rfl
  within front back split := by
    rcases List.append_eq_append_iff.mp split with ⟨w, rfl, others⟩ | ⟨w, inside, _⟩
    · rw [openings_append, left.settled]
      rcases List.cons_eq_append_iff.mp others with ⟨rfl, _⟩ | ⟨more, rfl, rest⟩
      · exact Int.le_refl 0
      · have open' := right.within more back rest
        rw [openings_cons, flat]
        omega
    · exact left.within front w inside

theorem Balanced.cons {ts : List Token} {t : Token} (flat : t.opening = 0)
    (balanced : Balanced ts) : Balanced (t :: ts) :=
  balanced_nil.join flat balanced

theorem Balanced.group {left right : String} {ts : List Token} (balanced : Balanced ts) :
    Balanced (.lexeme .leftParen left :: ts ++ [.lexeme .rightParen right]) where
  settled := by
    simp [opening, balanced.settled]
  within front back split := by
    rcases List.cons_eq_append_iff.mp split with ⟨rfl, _⟩ | ⟨more, rfl, rest⟩
    · exact Int.le_refl 0
    · rw [openings_cons, opening]
      rcases List.append_eq_append_iff.mp rest with ⟨w, rfl, last⟩ | ⟨w, inside, _⟩
      · rw [openings_append, balanced.settled]
        rcases List.cons_eq_append_iff.mp last with ⟨rfl, _⟩ | ⟨none, rfl, nothing⟩
        · simp
        · obtain ⟨rfl, _⟩ := List.append_eq_nil_iff.mp nothing.symm
          simp [opening]
      · have open' := balanced.within more w inside
        omega

def enclosed (ts : List Token) : List Token :=
  .lexeme .leftParen "(" :: ts ++ [.lexeme .rightParen ")"]

section Splits

variable {ls rs ss ts front back : List Token} {t : Token}

/-- What stands in parentheses is on one side of every operator outside them. -/
theorem Balanced.join_split (left : Balanced ls) (inside : Balanced ss) (flat : t.opening = 0)
    (split : ls ++ t :: rs = front ++ enclosed ss ++ back) :
    (∃ w, ls = front ++ enclosed ss ++ w ∧ back = w ++ t :: rs) ∨
      ∃ w, front = ls ++ t :: w ∧ rs = w ++ enclosed ss ++ back := by
  rw [List.append_assoc] at split
  rcases List.append_eq_append_iff.mp split with ⟨w, rfl, others⟩ | ⟨w, rfl, others⟩
  · rcases List.cons_eq_append_iff.mp others with ⟨_, same⟩ | ⟨more, rfl, rest⟩
    · cases same
      contradiction
    · exact .inr ⟨more, rfl, by rw [rest, List.append_assoc]⟩
  · rcases List.append_eq_append_iff.mp others with ⟨v, rfl, rest⟩ | ⟨v, hole, rest⟩
    · exact .inl ⟨v, (List.append_assoc ..).symm, rest⟩
    · rcases List.cons_eq_append_iff.mp rest with ⟨rfl, same⟩ | ⟨more, rfl, _⟩
      · rw [List.append_nil] at hole
        subst hole
        exact .inl ⟨[], by rw [List.append_nil], same⟩
      · -- the operator would be in the parentheses, and the left side end with them open
        exfalso
        have outside := left.within front w rfl
        have settled := left.settled
        rw [openings_append] at settled
        rcases List.cons_eq_append_iff.mp hole with ⟨_, same⟩ | ⟨opened, rfl, rest⟩
        · cases same
          contradiction
        · rw [openings_cons, opening] at settled
          rcases List.append_eq_append_iff.mp rest with ⟨u, _, last⟩ | ⟨u, started, _⟩
          · rcases List.cons_eq_append_iff.mp last with ⟨_, same⟩ | ⟨_, _, nothing⟩
            · cases same
              contradiction
            · simp at nothing
          · have open' := inside.within opened u started
            omega

/-- What stands in parentheses inside of a group is the group or inside of what it encloses. -/
theorem Balanced.group_split {opener closer : String} (balanced : Balanced ts)
    (inside : Balanced ss)
    (split : .lexeme .leftParen opener :: ts ++ [.lexeme .rightParen closer] =
      front ++ enclosed ss ++ back) :
    (front = [] ∧ back = [] ∧ ts = ss) ∨
      ∃ u v, front = .lexeme .leftParen opener :: u ∧ back = v ++ [.lexeme .rightParen closer] ∧
        ts = u ++ enclosed ss ++ v := by
  cases front with
  | nil =>
    have rest : ts ++ [.lexeme .rightParen closer] = ss ++ [.lexeme .rightParen ")"] ++ back :=
      (List.cons.inj split).2
    rcases List.eq_nil_or_concat back with rfl | ⟨v, last, rfl⟩
    · rw [List.append_nil] at rest
      exact .inl ⟨rfl, rfl, (List.append_inj' rest rfl).1⟩
    · -- the group would go on behind its closing parenthesis
      rw [List.concat_eq_append, ← List.append_assoc] at rest
      have whole := (List.append_inj' rest rfl).1
      have closed := balanced.within (ss ++ [.lexeme .rightParen ")"]) v whole
      rw [openings_append, inside.settled] at closed
      contradiction
  | cons first u =>
    simp only [List.cons_append, List.cons.injEq] at split
    obtain ⟨rfl, rest⟩ := split
    rcases List.eq_nil_or_concat back with rfl | ⟨v, last, rfl⟩
    · -- the two would end with one parenthesis, though they began with two
      have whole : ts ++ [.lexeme .rightParen closer] =
          (u ++ .lexeme .leftParen "(" :: ss) ++ [.lexeme .rightParen ")"] := by
        rw [rest]
        simp [enclosed]
      have same := (List.append_inj' whole rfl).1
      have open' := balanced.within u _ same
      have settled := balanced.settled
      rw [same, openings_append, openings_cons, inside.settled, opening] at settled
      omega
    · rw [List.concat_eq_append, ← List.append_assoc] at rest
      obtain ⟨whole, same⟩ := List.append_inj' rest rfl
      cases same
      exact .inr ⟨u, v, rfl, List.concat_eq_append, whole⟩

end Splits

end Reckoner.Token
