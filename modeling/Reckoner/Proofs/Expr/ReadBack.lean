import Reckoner.Proofs.Evaluation
import Reckoner.Proofs.Number.ReadBack

namespace Reckoner

open Number (IsMagnitude)
open Token (Lexes Apart apart_of_head apart_of_last)

def Sign.kind : Sign → Kind
  | .plus => .plus
  | .minus => .minus

def Operator.kind : Operator → Kind
  | .add => .plus
  | .subtract => .minus
  | .multiply => .times
  | .divide => .divide

namespace Expr

def numbers : Expr → List Float
  | .number x => [x]
  | .signed _ operand => operand.numbers
  | .binary left _ right => left.numbers ++ right.numbers
  | .group inner => inner.numbers

def rebracket (left right text : String) : String :=
  String.ofList (text.toList.flatMap fun c =>
    if c = '[' then left.toList else if c = ']' then right.toList else [c])

def displayWith (left right : String) (t : Expr) : String :=
  rebracket left right t.display

/-- The tokens of the text of a tree, with others in place of its square brackets. -/
def tokens (ls rs : List Token) : Expr → List Token
  | .number x => [.lexeme .numeral (Number.text x)]
  | .signed sign operand => .lexeme sign.kind sign.symbol :: operand.tokens ls rs
  | .binary left operator right =>
    ls ++ (left.tokens ls rs ++ .lexeme operator.kind operator.symbol :: right.tokens ls rs) ++ rs
  | .group inner => .lexeme .leftParen "(" :: inner.tokens ls rs ++ [.lexeme .rightParen ")"]

/-- The tree with a group around every operation on two operands. -/
def grouped : Expr → Expr
  | .number x => .number x
  | .signed sign operand => .signed sign operand.grouped
  | .binary left operator right => .group (.binary left.grouped operator right.grouped)
  | .group inner => .group inner.grouped

theorem value_grouped (t : Expr) : t.grouped.value = t.value := by
  induction t with
  | number x => rfl
  | signed sign operand ih => rw [grouped, value, value, ih]
  | binary left operator right ihLeft ihRight => rw [grouped, value, value, value, ihLeft, ihRight]
  | group inner ih => rw [grouped, value, value, ih]

section Rebracket

variable (left right : String)

theorem rebracket_append (s t : String) :
    rebracket left right (s ++ t) = rebracket left right s ++ rebracket left right t := by
  rw [rebracket, String.toList_append, List.flatMap_append, String.ofList_append]
  rfl

theorem rebracket_of_not_mem {s : String} (opening : '[' ∉ s.toList) (closing : ']' ∉ s.toList) :
    rebracket left right s = s := by
  have same : s.toList.flatMap (fun c =>
      if c = '[' then left.toList else if c = ']' then right.toList else [c]) =
      s.toList.flatMap fun c => [c] := by
    apply List.flatMap_congr
    intro c member
    rw [if_neg (ne_of_mem_of_not_mem member opening), if_neg (ne_of_mem_of_not_mem member closing)]
  rw [rebracket, same, List.flatMap_singleton', String.ofList_toList]

theorem displayWith_number {x : Float} (magnitude : IsMagnitude x) :
    displayWith left right (.number x) = Number.text x := by
  have form := Number.isNumeral_text magnitude
  apply rebracket_of_not_mem
  · intro member
    rcases form.numeric member with digit | point <;> contradiction
  · intro member
    rcases form.numeric member with digit | point <;> contradiction

theorem displayWith_signed (sign : Sign) (operand : Expr) :
    displayWith left right (.signed sign operand) =
      sign.symbol ++ operand.displayWith left right := by
  have symbol : rebracket left right sign.symbol = sign.symbol := by
    cases sign <;> exact rebracket_of_not_mem left right (by decide) (by decide)
  rw [displayWith, display, rebracket_append, symbol]
  rfl

theorem displayWith_binary (l : Expr) (operator : Operator) (r : Expr) :
    displayWith left right (.binary l operator r) =
      left ++ (l.displayWith left right ++ " " ++ operator.symbol ++ " " ++
        r.displayWith left right) ++ right := by
  have symbol : rebracket left right operator.symbol = operator.symbol := by
    cases operator <;> exact rebracket_of_not_mem left right (by decide) (by decide)
  have blank : rebracket left right " " = " " :=
    rebracket_of_not_mem left right (by decide) (by decide)
  have opening : rebracket left right "[" = left := by simp [rebracket]
  have closing : rebracket left right "]" = right := by simp [rebracket]
  simp only [displayWith, display, rebracket_append, symbol, blank, opening, closing,
    String.append_assoc]

theorem displayWith_group (inner : Expr) :
    displayWith left right (.group inner) = "(" ++ inner.displayWith left right ++ ")" := by
  have opening : rebracket left right "(" = "(" :=
    rebracket_of_not_mem left right (by decide) (by decide)
  have closing : rebracket left right ")" = ")" :=
    rebracket_of_not_mem left right (by decide) (by decide)
  rw [displayWith, display, rebracket_append, rebracket_append, opening, closing]
  rfl

end Rebracket

/-- What can stand in place of square brackets, with its tokens. -/
structure Brackets (left right : String) (ls rs : List Token) : Prop where
  lexesLeft : Lexes left ls
  lexesRight : Lexes right rs
  apartLeft : ∀ s, Apart left.toList s
  apartRight : ∀ s, Apart s right.toList

theorem brackets_none : Brackets "" "" [] [] where
  lexesLeft := Token.lexes_empty
  lexesRight := Token.lexes_empty
  apartLeft _ := apart_of_last (by simp)
  apartRight _ := apart_of_head (by simp)

theorem brackets_parentheses :
    Brackets "(" ")" [.lexeme .leftParen "("] [.lexeme .rightParen ")"] where
  lexesLeft := Token.lexes_symbol (c := '(') rfl
  lexesRight := Token.lexes_symbol (c := ')') rfl
  apartLeft _ := apart_of_last (by simp)
  apartRight _ := apart_of_head (by simp)

theorem lexes_sign (sign : Sign) : Lexes sign.symbol [.lexeme sign.kind sign.symbol] := by
  cases sign with
  | plus => exact Token.lexes_symbol (c := '+') rfl
  | minus => exact Token.lexes_symbol (c := '-') rfl

theorem lexes_operator (operator : Operator) :
    Lexes operator.symbol [.lexeme operator.kind operator.symbol] := by
  cases operator with
  | add => exact Token.lexes_symbol (c := '+') rfl
  | subtract => exact Token.lexes_symbol (c := '-') rfl
  | multiply => exact Token.lexes_symbol (c := '*') rfl
  | divide => exact Token.lexes_symbol (c := '/') rfl

theorem Brackets.lexes {left right : String} {ls rs : List Token}
    (brackets : Brackets left right ls rs) {t : Expr} (magnitudes : ∀ x ∈ t.numbers, IsMagnitude x) :
    Lexes (t.displayWith left right) (t.tokens ls rs) := by
  induction t with
  | number x =>
    have magnitude := magnitudes x (List.mem_singleton_self x)
    rw [displayWith_number left right magnitude]
    exact Token.lexes_numeral (Number.isNumeral_text magnitude)
  | signed sign operand ih =>
    rw [displayWith_signed]
    apply (lexes_sign sign).append (ih magnitudes)
    apply apart_of_last
    cases sign <;> simp [Sign.symbol]
  | binary l operator r ihLeft ihRight =>
    obtain ⟨magnitudesLeft, magnitudesRight⟩ := List.forall_mem_append.mp magnitudes
    have inside := ((ihLeft magnitudesLeft).append_spaced (lexes_operator operator)).append_spaced
      (ihRight magnitudesRight)
    have opened := brackets.lexesLeft.append inside (brackets.apartLeft _)
    have closed := opened.append brackets.lexesRight (brackets.apartRight _)
    rw [displayWith_binary]
    simpa [tokens] using closed
  | group inner ih =>
    have opened := brackets_parentheses.lexesLeft.append (ih magnitudes)
      (brackets_parentheses.apartLeft _)
    have closed := opened.append brackets_parentheses.lexesRight
      (brackets_parentheses.apartRight _)
    rw [displayWith_group]
    exact closed

/-- A tree made of operands that have parentheses around them is derived whatever the operators. -/
theorem isSum_of_operands {ls rs : List Token} {l r : Expr} (operator : Operator)
    (left : IsOperand ls l) (right : IsOperand rs r) :
    IsSum (ls ++ .lexeme operator.kind operator.symbol :: rs) (.binary l operator r) := by
  cases operator with
  | add | subtract => exact .next (.single (.single left)) rfl (.single right)
  | multiply | divide => exact .single (.next (.single left) rfl right)

theorem isOperand_signed {ts : List Token} {t : Expr} (sign : Sign) (operand : IsOperand ts t) :
    IsOperand (.lexeme sign.kind sign.symbol :: ts) (.signed sign t) := by
  cases sign with
  | plus => exact .plus operand
  | minus => exact .minus operand

theorem isOperand_grouped {t : Expr} (magnitudes : ∀ x ∈ t.numbers, IsMagnitude x) :
    IsOperand (t.tokens [.lexeme .leftParen "("] [.lexeme .rightParen ")"]) t.grouped := by
  induction t with
  | number x => exact .number (Number.read?_text (magnitudes x (List.mem_singleton_self x)))
  | signed sign operand ih => exact isOperand_signed sign (ih magnitudes)
  | binary l operator r ihLeft ihRight =>
    obtain ⟨magnitudesLeft, magnitudesRight⟩ := List.forall_mem_append.mp magnitudes
    exact .group (isSum_of_operands operator (ihLeft magnitudesLeft) (ihRight magnitudesRight))
  | group inner ih => exact .group (.single (.single (ih magnitudes)))

theorem additive_symbol {t : Token} {operator : Operator}
    (additive : t.additive? = some operator) :
    (Token.lexeme operator.kind operator.symbol).additive? = some operator := by
  unfold Token.additive? at additive
  split at additive
  · cases additive
    rfl
  · cases additive
    rfl
  · contradiction

theorem multiplicative_symbol {t : Token} {operator : Operator}
    (multiplicative : t.multiplicative? = some operator) :
    (Token.lexeme operator.kind operator.symbol).multiplicative? = some operator := by
  unfold Token.multiplicative? at multiplicative
  split at multiplicative
  · cases multiplicative
    rfl
  · cases multiplicative
    rfl
  · contradiction

def Reprinted (G : List Token → Expr → Prop) (_ : List Token) (t : Expr) : Prop :=
  (∀ x ∈ t.numbers, IsMagnitude x) → G (t.tokens [] []) t

theorem closed_reprinted : Closed (Reprinted IsSum) (Reprinted IsProduct) (Reprinted IsOperand) where
  sum_single reprinted magnitudes := .single (reprinted magnitudes)
  sum_next {ls rs t l r operator} left additive right magnitudes := by
    obtain ⟨magnitudesLeft, magnitudesRight⟩ := List.forall_mem_append.mp magnitudes
    have sum := IsSum.next (left magnitudesLeft) (additive_symbol additive) (right magnitudesRight)
    simpa [tokens] using sum
  product_single reprinted magnitudes := .single (reprinted magnitudes)
  product_next {ls rs t l r operator} left multiplicative right magnitudes := by
    obtain ⟨magnitudesLeft, magnitudesRight⟩ := List.forall_mem_append.mp magnitudes
    have product := IsProduct.next (left magnitudesLeft) (multiplicative_symbol multiplicative)
      (right magnitudesRight)
    simpa [tokens] using product
  number {text x} _ magnitudes :=
    .number (Number.read?_text (magnitudes x (List.mem_singleton_self x)))
  plus reprinted magnitudes := .plus (reprinted magnitudes)
  minus reprinted magnitudes := .minus (reprinted magnitudes)
  group reprinted magnitudes := .group (reprinted magnitudes)

def Stands (ts : List Token) (t : Expr) : Prop :=
  ∀ x ∈ t.numbers, ∃ text, Token.lexeme .numeral text ∈ ts ∧ Number.read? text = some x

theorem Stands.mono {ts us : List Token} {t : Expr} (stands : Stands ts t) (inside : ts ⊆ us) :
    Stands us t := by
  intro x member
  obtain ⟨text, held, readable⟩ := stands x member
  exact ⟨text, inside held, readable⟩

theorem Stands.binary {ls rs : List Token} {t : Token} {l r : Expr} {operator : Operator}
    (left : Stands ls l) (right : Stands rs r) : Stands (ls ++ t :: rs) (.binary l operator r) := by
  have insideRight : rs ⊆ ls ++ t :: rs :=
    List.subset_append_of_subset_right ls (List.subset_cons_self t rs)
  exact List.forall_mem_append.mpr
    ⟨left.mono (List.subset_append_left _ _), right.mono insideRight⟩

theorem closed_stands : Closed Stands Stands Stands where
  sum_single stands := stands
  sum_next left _ right := left.binary right
  product_single stands := stands
  product_next left _ right := left.binary right
  number readable := List.forall_mem_singleton.mpr ⟨_, List.mem_singleton_self _, readable⟩
  plus stands := stands.mono (List.subset_cons_self _ _)
  minus stands := stands.mono (List.subset_cons_self _ _)
  group stands := stands.mono
    (List.subset_append_of_subset_left _ (List.subset_cons_self _ _))

/-- The numbers of a tree that was read from a text have a clear sign bit, and none is undefined. -/
theorem exists_bits_of_lexes {text : String} {ts : List Token} {t : Expr} (lexes : Lexes text ts)
    (derived : IsSum ts t) :
    ∀ x ∈ t.numbers, ∃ bits, bits ≤ Number.infinityBits ∧ x = Number.ofMagnitude bits := by
  intro x member
  obtain ⟨numeral, held, readable⟩ := closed_stands.sum derived x member
  obtain ⟨bits, bound, read⟩ :=
    Number.read?_of_isNumeral (lexes.wellFormed _ held).isNumeral_toList
  exact ⟨bits, bound, Option.some.inj (readable.symm.trans read)⟩

theorem isMagnitude_of_lexes {text : String} {ts : List Token} {t : Expr} (lexes : Lexes text ts)
    (derived : IsSum ts t) (finite : ∀ x ∈ t.numbers, x.isFinite = true) :
    ∀ x ∈ t.numbers, IsMagnitude x := by
  intro x member
  obtain ⟨bits, bound, rfl⟩ := exists_bits_of_lexes lexes derived x member
  exact Number.isMagnitude_of_finite bound (finite _ member)

def normalized (limit : Nat) (text : String) : Except Refusal String :=
  match Token.scan text with
  | .error fault => .error (.foreign fault)
  | .ok tokens =>
    match ofTokens limit tokens with
    | .error fault => .error (.malformed fault)
    | .ok tree => .ok (tree.displayWith "" "")

/-- A tree that was read from a text, with finite numbers, is read again from its own text without
square brackets. So a text that is normalized once is normal, and its value stays. -/
theorem displayed_reads_back {limit : Nat} {text : String} {tokens : List Token} {tree : Expr}
    (scanned : Token.scan text = .ok tokens) (read : ofTokens limit tokens = .ok tree)
    (finite : ∀ x ∈ tree.numbers, x.isFinite = true) :
    (∃ again, Token.scan (tree.displayWith "" "") = .ok again ∧ ofTokens limit again = .ok tree) ∧
      normalized limit text = .ok (tree.displayWith "" "") ∧
      normalized limit (tree.displayWith "" "") = .ok (tree.displayWith "" "") ∧
      evaluate limit text = .ok tree.value ∧
      evaluate limit (tree.displayWith "" "") = .ok tree.value := by
  obtain ⟨ts, rfl, lexes⟩ := Token.exists_lexes scanned
  obtain ⟨derived, within⟩ := (ofTokens_of_lexes lexes).mp read
  have magnitudes := isMagnitude_of_lexes lexes derived finite
  have lexesAgain := brackets_none.lexes magnitudes
  have derivedAgain := closed_reprinted.sum derived magnitudes
  have readAgain : ofTokens limit (tree.tokens [] [] ++ [.endOfInput]) = .ok tree :=
    (ofTokens_of_lexes lexesAgain).mpr ⟨derivedAgain, within⟩
  refine ⟨⟨_, lexesAgain, readAgain⟩, ?_, ?_, ?_, ?_⟩
  · simp only [normalized, scanned, read]
  · have scannedAgain : Token.scan (tree.displayWith "" "") = _ := lexesAgain
    simp only [normalized, scannedAgain, readAgain]
  · exact evaluate_eq_ok_iff.mpr ⟨ts, tree, lexes, derived, within, rfl⟩
  · exact evaluate_eq_ok_iff.mpr ⟨_, tree, lexesAgain, derivedAgain, within, rfl⟩

/-- A zero at the end of a fraction is not printed, and blanks come to stand around operators. -/
theorem displayed_reads_back_product :
    let tokens : List Token :=
      [.lexeme .numeral "8", .lexeme .minus "-", .lexeme .leftParen "(", .lexeme .numeral "1.50",
        .lexeme .minus "-", .lexeme .numeral "2", .lexeme .rightParen ")", .lexeme .times "*",
        .lexeme .minus "-", .lexeme .numeral "3", .endOfInput]
    let tree : Expr :=
      .binary (.number 8) .subtract
        (.binary (.group (.binary (.number 1.5) .subtract (.number 2))) .multiply
          (.signed .minus (.number 3)))
    Token.scan "8-(1.50-2)*-3" = .ok tokens ∧ ofTokens 5 tokens = .ok tree ∧
      (∀ x ∈ tree.numbers, x.isFinite = true) ∧
      tree.displayWith "" "" = "8 - (1.5 - 2) * -3" ∧
      (∃ again, Token.scan "8 - (1.5 - 2) * -3" = .ok again ∧ ofTokens 5 again = .ok tree) ∧
      normalized 5 "8 - (1.5 - 2) * -3" = .ok "8 - (1.5 - 2) * -3" := by
  intro tokens tree
  have scanned : Token.scan "8-(1.50-2)*-3" = .ok tokens := by decide +kernel
  have read : ofTokens 5 tokens = .ok tree := by decide +kernel
  have finite : ∀ x ∈ tree.numbers, x.isFinite = true := by decide +kernel
  have printed : tree.displayWith "" "" = "8 - (1.5 - 2) * -3" := by decide +kernel
  obtain ⟨again, _, normal, _⟩ := displayed_reads_back scanned read finite
  rw [printed] at again normal
  exact ⟨scanned, read, finite, printed, again, normal⟩

/-- The text of a tree with finite numbers and clear sign bits, with parentheses for its square
brackets, is read as the tree with a group around every operation on two operands, whatever its
shape. -/
theorem displayed_reads_grouped (t : Expr) (magnitudes : ∀ x ∈ t.numbers, IsMagnitude x) :
    ∃ tokens, Token.scan (t.displayWith "(" ")") = .ok tokens ∧
      (∀ limit, t.grouped.depth ≤ limit → ofTokens limit tokens = .ok t.grouped) ∧
      t.grouped.value = t.value := by
  have lexes := brackets_parentheses.lexes magnitudes
  refine ⟨_, lexes, ?_, value_grouped t⟩
  intro limit within
  exact (ofTokens_of_lexes lexes).mpr ⟨.single (.single (isOperand_grouped magnitudes)), within⟩

/-- A sign in front of a sum and a difference on the right of another, as no text has them. -/
theorem displayed_reads_grouped_difference :
    let t : Expr :=
      .binary (.number 1) .subtract
        (.binary (.signed .minus (.binary (.number 2) .add (.number 0.5))) .subtract (.number 3))
    (∀ x ∈ t.numbers, IsMagnitude x) ∧ t.displayWith "(" ")" = "(1 - (-(2 + 0.5) - 3))" ∧
      ∃ tokens, Token.scan "(1 - (-(2 + 0.5) - 3))" = .ok tokens ∧
        (∀ limit, t.grouped.depth ≤ limit → ofTokens limit tokens = .ok t.grouped) ∧
        t.grouped.value = t.value := by
  intro t
  have magnitudes : ∀ x ∈ t.numbers, IsMagnitude x := by decide +kernel
  have printed : t.displayWith "(" ")" = "(1 - (-(2 + 0.5) - 3))" := by decide +kernel
  have reads := displayed_reads_grouped t magnitudes
  rw [printed] at reads
  exact ⟨magnitudes, printed, reads⟩

end Expr

end Reckoner
