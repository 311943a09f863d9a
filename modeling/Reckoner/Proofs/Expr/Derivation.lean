import Reckoner.Expr.Grammar

namespace Reckoner.Expr

/-- Three relations between tokens and trees that every production of the grammar preserves: one for
sums, one for products and one for operands. -/
structure Closed (S P O : List Token → Expr → Prop) : Prop where
  sum_single {ts : List Token} {t : Expr} : P ts t → S ts t
  sum_next {ls rs : List Token} {t : Token} {l r : Expr} {operator : Operator} :
    S ls l → t.additive? = some operator → P rs r → S (ls ++ t :: rs) (.binary l operator r)
  product_single {ts : List Token} {t : Expr} : O ts t → P ts t
  product_next {ls rs : List Token} {t : Token} {l r : Expr} {operator : Operator} :
    P ls l → t.multiplicative? = some operator → O rs r →
      P (ls ++ t :: rs) (.binary l operator r)
  number {text : String} {x : Float} :
    Number.read? text = some x → O [.lexeme .numeral text] (.number x)
  plus {text : String} {ts : List Token} {t : Expr} :
    O ts t → O (.lexeme .plus text :: ts) (.signed .plus t)
  minus {text : String} {ts : List Token} {t : Expr} :
    O ts t → O (.lexeme .minus text :: ts) (.signed .minus t)
  group {left right : String} {ts : List Token} {t : Expr} :
    S ts t → O (.lexeme .leftParen left :: ts ++ [.lexeme .rightParen right]) (.group t)

variable {S P O : List Token → Expr → Prop}

mutual

theorem Closed.sum (closed : Closed S P O) {ts : List Token} {t : Expr} :
    IsSum ts t → S ts t
  | .single derived => closed.sum_single (closed.product derived)
  | .next left operator right =>
    closed.sum_next (closed.sum left) operator (closed.product right)

theorem Closed.product (closed : Closed S P O) {ts : List Token} {t : Expr} :
    IsProduct ts t → P ts t
  | .single derived => closed.product_single (closed.operand derived)
  | .next left operator right =>
    closed.product_next (closed.product left) operator (closed.operand right)

theorem Closed.operand (closed : Closed S P O) {ts : List Token} {t : Expr} :
    IsOperand ts t → O ts t
  | .number readable => closed.number readable
  | .plus derived => closed.plus (closed.operand derived)
  | .minus derived => closed.minus (closed.operand derived)
  | .group derived => closed.group (closed.sum derived)

end

theorem depth_pos (t : Expr) : 0 < t.depth := by
  cases t <;> exact Nat.succ_pos _

theorem closed_depth_le :
    Closed (fun ts t => t.depth ≤ ts.length) (fun ts t => t.depth ≤ ts.length)
      (fun ts t => t.depth ≤ ts.length) where
  sum_single bound := bound
  sum_next left _ right := by
    simp only [depth, List.length_append, List.length_cons]
    omega
  product_single bound := bound
  product_next left _ right := by
    simp only [depth, List.length_append, List.length_cons]
    omega
  number _ := Nat.le_refl 1
  plus bound := Nat.succ_le_succ bound
  minus bound := Nat.succ_le_succ bound
  group bound := by
    simp only [depth, List.length_append, List.length_cons]
    omega

/-- A tree takes at least one token for every level. -/
theorem IsSum.depth_le {ts : List Token} {t : Expr} (derived : IsSum ts t) :
    t.depth ≤ ts.length :=
  closed_depth_le.sum derived

theorem IsProduct.depth_le {ts : List Token} {t : Expr} (derived : IsProduct ts t) :
    t.depth ≤ ts.length :=
  closed_depth_le.product derived

theorem IsOperand.depth_le {ts : List Token} {t : Expr} (derived : IsOperand ts t) :
    t.depth ≤ ts.length :=
  closed_depth_le.operand derived

theorem endOfInput_not_mem_joined {ls rs : List Token} {t : Token}
    (left : Token.endOfInput ∉ ls) (lexeme : t ≠ .endOfInput) (right : Token.endOfInput ∉ rs) :
    Token.endOfInput ∉ ls ++ t :: rs := by
  simp only [List.mem_append, List.mem_cons, left, lexeme.symm, right, or_self,
    not_false_eq_true]

theorem closed_lexemes :
    Closed (fun ts _ => Token.endOfInput ∉ ts) (fun ts _ => Token.endOfInput ∉ ts)
      (fun ts _ => Token.endOfInput ∉ ts) where
  sum_single apart := apart
  sum_next left operator right :=
    endOfInput_not_mem_joined left (by rintro rfl; contradiction) right
  product_single apart := apart
  product_next left operator right :=
    endOfInput_not_mem_joined left (by rintro rfl; contradiction) right
  number _ := by simp
  plus apart := by simpa using apart
  minus apart := by simpa using apart
  group apart := by simpa using apart

theorem IsSum.endOfInput_not_mem {ts : List Token} {t : Expr} (derived : IsSum ts t) :
    Token.endOfInput ∉ ts :=
  closed_lexemes.sum derived

theorem IsSum.starts {ts : List Token} {t : Expr} (derived : IsSum ts t) :
    ∃ kind text rest, ts = .lexeme kind text :: rest := by
  have apart := derived.endOfInput_not_mem
  match ts with
  | [] => exact absurd (derived.depth_le) (Nat.not_le.mpr (depth_pos t))
  | .endOfInput :: _ => exact absurd List.mem_cons_self apart
  | .lexeme kind text :: rest => exact ⟨kind, text, rest, rfl⟩

end Reckoner.Expr
