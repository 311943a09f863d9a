import Mathlib.Data.List.Basic
import Reckoner.Expr.Reading
import Reckoner.Proofs.Expr.Derivation

namespace Reckoner

theorem Token.multiplicative_of_additive {t : Token} {operator : Operator}
    (additive : t.additive? = some operator) : t.multiplicative? = none := by
  match t with
  | .endOfInput => rfl
  | .lexeme .times _ | .lexeme .divide _ => contradiction
  | .lexeme .plus _ | .lexeme .minus _ | .lexeme .numeral _ | .lexeme .leftParen _
  | .lexeme .rightParen _ => rfl

namespace Expr

namespace Reader

def Derives (limit : Nat) (G : List Token → Expr → Prop) (reader : Reader) : Prop :=
  ∀ (ts : List Token) (r : Reading), reader.read ts = .ok r →
    ∃ front, ts = front ++ r.rest ∧ G front r.tree ∧ r.depth = r.tree.depth ∧ r.depth ≤ limit

section Chain

variable {limit : Nat} {operator? : Token → Option Operator} {operand : Reader}

theorem continueChain_derives {G C : List Token → Expr → Prop} (derives : operand.Derives limit G)
    (next : ∀ {ls rs : List Token} {t : Token} {l r : Expr} {operator : Operator},
      C ls l → operator? t = some operator → G rs r → C (ls ++ t :: rs) (.binary l operator r))
    {front : List Token} {left : Expr} {depth : Nat} {ts : List Token} {r : Reading}
    (derived : C front left) (exactly : depth = left.depth) (within : depth ≤ limit)
    (h : continueChain limit operator? operand left depth ts = .ok r) :
    ∃ more, ts = more ++ r.rest ∧ C (front ++ more) r.tree ∧ r.depth = r.tree.depth ∧
      r.depth ≤ limit := by
  fun_induction continueChain limit operator? operand left depth ts generalizing front with
  | case1 | case2 =>
    cases h
    exact ⟨[], rfl, by rwa [List.append_nil], exactly, within⟩
  | case3 | case4 => contradiction
  | case5 left depth t ts operator continues right read shallow ih =>
    obtain ⟨middle, taken, operandDerived, operandExactly, _⟩ := derives _ _ read
    have grown : C (front ++ t :: middle) (.binary left operator right.tree) :=
      next derived continues operandDerived
    have depths : max depth right.depth + 1 = (Expr.binary left operator right.tree).depth := by
      rw [exactly, operandExactly, Expr.depth]
    obtain ⟨more, rest, whole, facts⟩ := ih grown depths (Nat.le_of_not_lt shallow) h
    refine ⟨t :: middle ++ more, ?_, ?_, facts⟩
    · rw [taken, rest, List.append_assoc, List.cons_append]
    · rwa [← List.append_assoc]

theorem Derives.chain {G C : List Token → Expr → Prop} (derives : operand.Derives limit G)
    (single : ∀ {ts : List Token} {t : Expr}, G ts t → C ts t)
    (next : ∀ {ls rs : List Token} {t : Token} {l r : Expr} {operator : Operator},
      C ls l → operator? t = some operator → G rs r → C (ls ++ t :: rs) (.binary l operator r)) :
    (Reader.chain limit operator? operand).Derives limit C := by
  intro ts r h
  obtain ⟨first, read, h⟩ := bind_eq_ok h
  obtain ⟨front, taken, derived, exactly, within⟩ := derives _ _ read
  obtain ⟨more, rest, facts⟩ :=
    continueChain_derives derives next (single derived) exactly within h
  refine ⟨front ++ more, ?_, facts⟩
  rw [taken, rest, List.append_assoc]

end Chain

theorem Derives.product {limit : Nat} {operand : Reader}
    (derives : operand.Derives limit IsOperand) :
    (Reader.product limit operand).Derives limit IsProduct :=
  derives.chain .single .next

theorem Derives.sum {limit : Nat} {operand : Reader} (derives : operand.Derives limit IsOperand) :
    (Reader.sum limit operand).Derives limit IsSum :=
  derives.product.chain .single .next

theorem signed_derives {limit : Nat} {inner : Reader} (derives : inner.Derives limit IsOperand)
    {sign : Sign} {ts : List Token} {r : Reading}
    (h : (inner.read ts).bind (Reading.signed limit sign) = .ok r) :
    ∃ front t, ts = front ++ r.rest ∧ IsOperand front t ∧ r.tree = .signed sign t ∧
      r.depth = r.tree.depth ∧ r.depth ≤ limit := by
  obtain ⟨operand, read, h⟩ := bind_eq_ok h
  obtain ⟨front, taken, derived, exactly, _⟩ := derives _ _ read
  obtain ⟨rfl, within⟩ := Reading.within_eq_ok h
  exact ⟨front, operand.tree, taken, derived, rfl, congrArg (· + 1) exactly, within⟩

theorem Derives.enclosing {limit : Nat} {inner : Reader}
    (derives : inner.Derives limit IsOperand) :
    (Reader.enclosing limit inner).Derives limit IsOperand := by
  intro ts r h
  cases ts with
  | nil => contradiction
  | cons t ts =>
    cases t with
    | endOfInput => contradiction
    | lexeme kind text =>
      cases kind with
      | numeral =>
        simp only [Reader.enclosing] at h
        cases readable : Number.read? text with
        | none =>
          rw [readable] at h
          contradiction
        | some x =>
          rw [readable] at h
          obtain ⟨rfl, within⟩ := Reading.within_eq_ok h
          exact ⟨[.lexeme .numeral text], rfl, .number readable, rfl, within⟩
      | plus =>
        obtain ⟨front, t, taken, derived, tree, facts⟩ := signed_derives derives h
        exact ⟨.lexeme .plus text :: front, congrArg _ taken, tree ▸ .plus derived, facts⟩
      | minus =>
        obtain ⟨front, t, taken, derived, tree, facts⟩ := signed_derives derives h
        exact ⟨.lexeme .minus text :: front, congrArg _ taken, tree ▸ .minus derived, facts⟩
      | leftParen =>
        obtain ⟨inside, read, h⟩ := bind_eq_ok h
        obtain ⟨front, taken, derived, exactly, _⟩ := derives.sum _ _ read
        unfold Reading.grouped at h
        split at h
        · next right ts rest =>
          obtain ⟨rfl, within⟩ := Reading.within_eq_ok h
          refine ⟨.lexeme .leftParen text :: front ++ [.lexeme .rightParen right], ?_,
            .group derived, congrArg (· + 1) exactly, within⟩
          simp only [taken, rest, List.cons_append, List.append_assoc, List.nil_append]
        · contradiction
      | times | divide | rightParen => contradiction

theorem operand_derives (limit levels : Nat) :
    (operand limit levels).Derives limit IsOperand := by
  induction levels with
  | zero =>
    intro ts r h
    contradiction
  | succ levels ih =>
    rw [operand_succ]
    exact ih.enclosing

def Ends (operator? : Token → Option Operator) (ts : List Token) : Prop :=
  ∀ t ∈ ts.head?, operator? t = none

theorem continueChain_of_ends {limit : Nat} {operator? : Token → Option Operator}
    {operand : Reader} {left : Expr} {depth : Nat} {ts : List Token} (ends : Ends operator? ts) :
    continueChain limit operator? operand left depth ts = .ok ⟨left, depth, ts⟩ := by
  cases ts with
  | nil => exact continueChain_nil
  | cons t ts => exact continueChain_stop (ends t rfl)

def ReadsOperand (limit : Nat) (ts : List Token) (t : Expr) : Prop :=
  t.depth ≤ limit → ∀ levels, t.depth ≤ levels → ∀ more,
    (operand limit levels).read (ts ++ more) = .ok ⟨t, t.depth, more⟩

/-- Reading a product with the tree comes down to going on from it. -/
def ReadsProduct (limit : Nat) (ts : List Token) (t : Expr) : Prop :=
  t.depth ≤ limit → ∀ levels, t.depth ≤ levels → ∀ more,
    (product limit (operand limit levels)).read (ts ++ more) =
      continueChain limit Token.multiplicative? (operand limit levels) t t.depth more

/-- Reading a sum with the tree comes down to going on from it, if no product does. -/
def ReadsSum (limit : Nat) (ts : List Token) (t : Expr) : Prop :=
  t.depth ≤ limit → ∀ levels, t.depth ≤ levels → ∀ more, Ends Token.multiplicative? more →
    (sum limit (operand limit levels)).read (ts ++ more) =
      continueChain limit Token.additive? (product limit (operand limit levels)) t t.depth more

theorem ReadsProduct.single {limit : Nat} {ts : List Token} {t : Expr}
    (reads : ReadsOperand limit ts t) : ReadsProduct limit ts t := by
  intro within levels enough more
  simp only [product, chain, reads within levels enough more]
  rfl

theorem ReadsProduct.next {limit : Nat} {ls rs : List Token} {t : Token} {l r : Expr}
    {operator : Operator} (left : ReadsProduct limit ls l)
    (continues : t.multiplicative? = some operator) (right : ReadsOperand limit rs r) :
    ReadsProduct limit (ls ++ t :: rs) (.binary l operator r) := by
  intro within levels enough more
  rw [depth] at within enough
  have readLeft := left (by omega) levels (by omega) (t :: rs ++ more)
  have readRight := right (by omega) levels (by omega) more
  rw [List.append_assoc, readLeft, List.cons_append,
    continueChain_next continues readRight within, depth]

theorem ReadsSum.single {limit : Nat} {ts : List Token} {t : Expr}
    (reads : ReadsProduct limit ts t) : ReadsSum limit ts t := by
  intro within levels enough more ends
  simp only [sum, chain, reads within levels enough more, continueChain_of_ends ends]
  rfl

theorem ReadsSum.next {limit : Nat} {ls rs : List Token} {t : Token} {l r : Expr}
    {operator : Operator} (left : ReadsSum limit ls l)
    (continues : t.additive? = some operator) (right : ReadsProduct limit rs r) :
    ReadsSum limit (ls ++ t :: rs) (.binary l operator r) := by
  intro within levels enough more ends
  rw [depth] at within enough
  have tighter : Ends Token.multiplicative? (t :: rs ++ more) := by
    intro first same
    cases same
    exact Token.multiplicative_of_additive continues
  have readLeft := left (by omega) levels (by omega) (t :: rs ++ more) tighter
  have readRight := (right (by omega) levels (by omega) more).trans (continueChain_of_ends ends)
  rw [List.append_assoc, readLeft, List.cons_append,
    continueChain_next continues readRight within, depth]

theorem ReadsOperand.number {limit : Nat} {text : String} {x : Float}
    (readable : Number.read? text = some x) :
    ReadsOperand limit [.lexeme .numeral text] (.number x) := by
  intro within levels enough more
  cases levels with
  | zero => exact absurd enough (Nat.not_succ_le_zero _)
  | succ levels =>
    simp only [operand_succ, enclosing, List.cons_append, List.nil_append, readable]
    exact Reading.within_of_le within

theorem ReadsOperand.signed {limit : Nat} {ts : List Token} {t : Expr}
    (reads : ReadsOperand limit ts t) {sign : Sign} {kind : Kind} {text : String}
    (opens : ∀ inner ts, (enclosing limit inner).read (.lexeme kind text :: ts) =
      (inner.read ts).bind (Reading.signed limit sign)) :
    ReadsOperand limit (.lexeme kind text :: ts) (.signed sign t) := by
  intro within levels enough more
  cases levels with
  | zero => exact absurd enough (Nat.not_succ_le_zero _)
  | succ levels =>
    have inside := reads (Nat.le_of_succ_le within) levels (Nat.le_of_succ_le_succ enough) more
    rw [operand_succ, List.cons_append, opens, inside]
    exact Reading.within_of_le within

theorem ReadsOperand.group {limit : Nat} {left right : String} {ts : List Token} {t : Expr}
    (reads : ReadsSum limit ts t) :
    ReadsOperand limit (.lexeme .leftParen left :: ts ++ [.lexeme .rightParen right])
      (.group t) := by
  intro within levels enough more
  cases levels with
  | zero => exact absurd enough (Nat.not_succ_le_zero _)
  | succ levels =>
    have closing {operator? : Token → Option Operator}
        (none : operator? (.lexeme .rightParen right) = none) :
        Ends operator? (.lexeme .rightParen right :: more) := by
      intro first same
      cases same
      exact none
    have inside := reads (Nat.le_of_succ_le within) levels (Nat.le_of_succ_le_succ enough)
      (.lexeme .rightParen right :: more) (closing rfl)
    rw [continueChain_of_ends (closing rfl)] at inside
    rw [operand_succ, List.append_assoc, List.cons_append]
    simp only [enclosing, List.singleton_append, inside]
    exact Reading.within_of_le within

theorem closed_reads (limit : Nat) :
    Closed (ReadsSum limit) (ReadsProduct limit) (ReadsOperand limit) where
  sum_single := .single
  sum_next := .next
  product_single := .single
  product_next := .next
  number := .number
  plus reads := reads.signed fun _ _ => rfl
  minus reads := reads.signed fun _ _ => rfl
  group := .group

end Reader

def AtEnd (ts : List Token) : Prop :=
  ∀ t ∈ ts.head?, t = .endOfInput

theorem content_append {front rest : List Token} (lexemes : Token.endOfInput ∉ front)
    (atEnd : AtEnd rest) : Token.content (front ++ rest) = front := by
  have kept : ∀ t ∈ front, decide (t ≠ Token.endOfInput) = true :=
    fun t member => decide_eq_true fun same => lexemes (same ▸ member)
  rw [Token.content, List.takeWhile_append_of_pos kept]
  cases rest with
  | nil => rw [List.takeWhile_nil, List.append_nil]
  | cons t rest =>
    rw [atEnd t rfl, List.takeWhile_cons_of_neg (by simp), List.append_nil]

theorem content_split (ts : List Token) :
    ∃ rest, ts = Token.content ts ++ rest ∧ AtEnd rest := by
  refine ⟨ts.dropWhile (· ≠ .endOfInput), List.takeWhile_append_dropWhile.symm, ?_⟩
  intro t first
  have stopped := List.head?_dropWhile_not (fun t => decide (t ≠ Token.endOfInput)) ts
  rw [first] at stopped
  simpa using stopped

theorem AtEnd.ends_additive {ts : List Token} (atEnd : AtEnd ts) :
    Reader.Ends Token.additive? ts := by
  intro t first
  rw [atEnd t first]
  rfl

theorem AtEnd.ends_multiplicative {ts : List Token} (atEnd : AtEnd ts) :
    Reader.Ends Token.multiplicative? ts := by
  intro t first
  rw [atEnd t first]
  rfl

theorem derived_of_ofTokens {limit : Nat} {ts : List Token} {t : Expr}
    (h : ofTokens limit ts = .ok t) : IsSum (Token.content ts) t ∧ t.depth ≤ limit := by
  unfold ofTokens at h
  split at h
  · contradiction
  · contradiction
  · next kind text ts =>
    have derives := (Reader.operand_derives limit (limit + 1)).sum
    split at h
    · contradiction
    · next r read =>
      obtain ⟨front, taken, derived, exactly, within⟩ := derives _ _ read
      have ends : AtEnd r.rest ∧ r.tree = t := by
        split at h
        · next rest =>
          refine ⟨?_, Except.ok.inj h⟩
          simp [rest, AtEnd]
        · next rest =>
          refine ⟨?_, Except.ok.inj h⟩
          simp [rest, AtEnd]
        · contradiction
      obtain ⟨atEnd, rfl⟩ := ends
      rw [taken, content_append derived.endOfInput_not_mem atEnd]
      exact ⟨derived, exactly ▸ within⟩

theorem ofTokens_of_derived {limit : Nat} {ts : List Token} {t : Expr}
    (derived : IsSum (Token.content ts) t) (within : t.depth ≤ limit) :
    ofTokens limit ts = .ok t := by
  obtain ⟨rest, split, atEnd⟩ := content_split ts
  obtain ⟨kind, text, others, starts⟩ := derived.starts
  have read := (Reader.closed_reads limit).sum derived within (limit + 1) (by omega) rest
    atEnd.ends_multiplicative
  rw [Reader.continueChain_of_ends atEnd.ends_additive, starts, List.cons_append] at read
  rw [split, starts, List.cons_append, ofTokens, read]
  cases rest with
  | nil => rfl
  | cons t rest =>
    rw [atEnd t rfl]

end Expr

end Reckoner
