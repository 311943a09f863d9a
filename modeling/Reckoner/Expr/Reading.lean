import Reckoner.Number.Numeral
import Reckoner.Refusal
import Reckoner.Token.Basic

namespace Reckoner.Expr

structure Reading where
  tree : Expr
  depth : Nat
  rest : List Token

def Reading.within (limit : Nat) (r : Reading) : Except GrammarFault Reading :=
  if limit < r.depth then .error (.tooDeep limit) else .ok r

theorem Reading.within_eq_ok {limit : Nat} {r s : Reading} (h : r.within limit = .ok s) :
    s = r ∧ r.depth ≤ limit := by
  unfold within at h
  split at h
  · contradiction
  · cases h
    exact ⟨rfl, by omega⟩

theorem Reading.within_of_le {limit : Nat} {r : Reading} (h : r.depth ≤ limit) :
    r.within limit = .ok r :=
  if_neg (Nat.not_lt.mpr h)

def Reading.signed (limit : Nat) (sign : Sign) (r : Reading) : Except GrammarFault Reading :=
  Reading.within limit ⟨.signed sign r.tree, r.depth + 1, r.rest⟩

def Reading.grouped (limit : Nat) (r : Reading) : Except GrammarFault Reading :=
  match r.rest with
  | .lexeme .rightParen _ :: ts => Reading.within limit ⟨.group r.tree, r.depth + 1, ts⟩
  | _ => .error .unclosed

theorem Reading.rest_of_signed {limit : Nat} {sign : Sign} {r s : Reading}
    (h : r.signed limit sign = .ok s) : s.rest = r.rest := by
  rw [(within_eq_ok h).1]

theorem Reading.rest_of_grouped {limit : Nat} {r s : Reading} (h : r.grouped limit = .ok s) :
    s.rest.length < r.rest.length := by
  unfold grouped at h
  split at h
  · next hr =>
    rw [(within_eq_ok h).1, hr]
    simp
  · contradiction

/-- A way to read a tree that takes at least one token whenever it succeeds. -/
structure Reader where
  read : List Token → Except GrammarFault Reading
  shorter : ∀ {ts : List Token} {r : Reading}, read ts = .ok r → r.rest.length < ts.length

namespace Reader

theorem bind_eq_ok {α β : Type} {x : Except GrammarFault α} {f : α → Except GrammarFault β}
    {b : β} (h : x.bind f = .ok b) : ∃ a, x = .ok a ∧ f a = .ok b := by
  cases x with
  | error fault => contradiction
  | ok a => exact ⟨a, rfl, h⟩

/-- Goes on from a tree of the given depth: as long as an operator follows, reads its right operand
and folds the two to the left. -/
def continueChain (limit : Nat) (operator? : Token → Option Operator) (operand : Reader)
    (left : Expr) (depth : Nat) : List Token → Except GrammarFault Reading
  | [] => .ok ⟨left, depth, []⟩
  | t :: ts =>
    match operator? t with
    | none => .ok ⟨left, depth, t :: ts⟩
    | some operator =>
      match _h : operand.read ts with
      | .error fault => .error fault
      | .ok right =>
        if limit < max depth right.depth + 1 then .error (.tooDeep limit)
        else continueChain limit operator? operand (.binary left operator right.tree)
          (max depth right.depth + 1) right.rest
termination_by ts => ts.length
decreasing_by
  have := operand.shorter _h
  simp only [List.length_cons]
  omega

theorem continueChain_rest {limit : Nat} {operator? : Token → Option Operator} {operand : Reader}
    {left : Expr} {depth : Nat} {ts : List Token} {r : Reading}
    (h : continueChain limit operator? operand left depth ts = .ok r) :
    r.rest.length ≤ ts.length := by
  fun_induction continueChain limit operator? operand left depth ts with
  | case1 | case2 => cases h; exact Nat.le_refl _
  | case3 | case4 => contradiction
  | case5 left depth t ts operator hop right hr hd ih =>
    have := operand.shorter hr
    have := ih h
    simp only [List.length_cons]
    omega

section

variable {limit : Nat} {operator? : Token → Option Operator} {operand : Reader} {left : Expr}
  {depth : Nat} {t : Token} {ts : List Token} {operator : Operator}

theorem continueChain_nil :
    continueChain limit operator? operand left depth [] = .ok ⟨left, depth, []⟩ := by
  rw [continueChain]

theorem continueChain_stop (h : operator? t = none) :
    continueChain limit operator? operand left depth (t :: ts) = .ok ⟨left, depth, t :: ts⟩ := by
  rw [continueChain, h]

theorem continueChain_cons (h : operator? t = some operator) :
    continueChain limit operator? operand left depth (t :: ts) =
      (operand.read ts).bind fun right =>
        if limit < max depth right.depth + 1 then .error (.tooDeep limit)
        else continueChain limit operator? operand (.binary left operator right.tree)
          (max depth right.depth + 1) right.rest := by
  rw [continueChain, h]
  dsimp only
  split
  · next hr => rw [hr, Except.bind]
  · next hr => rw [hr, Except.bind]

theorem continueChain_error {fault : GrammarFault} (h : operator? t = some operator)
    (hr : operand.read ts = .error fault) :
    continueChain limit operator? operand left depth (t :: ts) = .error fault := by
  rw [continueChain_cons h, hr, Except.bind]

theorem continueChain_tooDeep {right : Reading} (h : operator? t = some operator)
    (hr : operand.read ts = .ok right) (hd : limit < max depth right.depth + 1) :
    continueChain limit operator? operand left depth (t :: ts) = .error (.tooDeep limit) := by
  rw [continueChain_cons h, hr, Except.bind, if_pos hd]

theorem continueChain_next {right : Reading} (h : operator? t = some operator)
    (hr : operand.read ts = .ok right) (hd : max depth right.depth + 1 ≤ limit) :
    continueChain limit operator? operand left depth (t :: ts) =
      continueChain limit operator? operand (.binary left operator right.tree)
        (max depth right.depth + 1) right.rest := by
  rw [continueChain_cons h, hr, Except.bind, if_neg (Nat.not_lt.mpr hd)]

end

def chain (limit : Nat) (operator? : Token → Option Operator) (operand : Reader) : Reader where
  read ts := (operand.read ts).bind fun r =>
    continueChain limit operator? operand r.tree r.depth r.rest
  shorter {ts r} h := by
    obtain ⟨left, hl, h⟩ := bind_eq_ok h
    have := operand.shorter hl
    have := continueChain_rest h
    omega

def product (limit : Nat) (operand : Reader) : Reader :=
  chain limit Token.multiplicative? operand

def sum (limit : Nat) (operand : Reader) : Reader :=
  chain limit Token.additive? (product limit operand)

def enclosing (limit : Nat) (inner : Reader) : Reader where
  read
    | [] => .error .unexpectedEnd
    | .endOfInput :: _ => .error .unexpectedEnd
    | .lexeme kind text :: ts =>
      match kind with
      | .numeral =>
        match Number.read? text with
        | some x => Reading.within limit ⟨.number x, 1, ts⟩
        | none => .error (.badNumeral text)
      | .plus => (inner.read ts).bind (Reading.signed limit .plus)
      | .minus => (inner.read ts).bind (Reading.signed limit .minus)
      | .leftParen => ((sum limit inner).read ts).bind (Reading.grouped limit)
      | .times | .divide | .rightParen => .error (.unexpectedToken text)
  shorter {ts r} h := by
    have signed {sign : Sign} {ts : List Token}
        (h : (inner.read ts).bind (Reading.signed limit sign) = .ok r) :
        r.rest.length < ts.length := by
      obtain ⟨s, hs, h⟩ := bind_eq_ok h
      rw [Reading.rest_of_signed h]
      exact inner.shorter hs
    split at h
    · contradiction
    · contradiction
    · rw [List.length_cons]
      split at h
      · split at h
        · rw [(Reading.within_eq_ok h).1]
          exact Nat.lt_succ_self _
        · contradiction
      · exact Nat.lt_succ_of_lt (signed h)
      · exact Nat.lt_succ_of_lt (signed h)
      · obtain ⟨s, hs, h⟩ := bind_eq_ok h
        have := (sum limit inner).shorter hs
        have := Reading.rest_of_grouped h
        omega
      all_goals contradiction

/-- Reads nothing: what is about to be opened is deeper than the limit. -/
def refuse (limit : Nat) : Reader where
  read _ := .error (.tooDeep limit)
  shorter h := by contradiction

/-- Reads an operand that may stand within others as long as no more than `levels` operands,
the outermost included, enclose one another. -/
def operand (limit : Nat) : (levels : Nat) → Reader
  | 0 => refuse limit
  | levels + 1 =>
    { read := fun ts => (enclosing limit (operand limit levels)).read ts
      shorter := fun h => (enclosing limit (operand limit levels)).shorter h }

theorem operand_succ (limit levels : Nat) :
    operand limit (levels + 1) = enclosing limit (operand limit levels) :=
  rfl

end Reader

/-- The tree of a list of tokens that forms one expression up to the end of the input. That end is
a token or the end of the list, and nothing after it is looked at. From the loosest to the tightest
binding:

    sum     := product (('+' | '-') product)*
    product := operand (('*' | '/') operand)*
    operand := ('+' | '-') operand | NUMERAL | '(' sum ')'

Repetitions fold to the left. Signs and parentheses are counted before what they enclose is read, so
that the recursion is no deeper than the limit on the tree. -/
def ofTokens (limit : Nat) : List Token → Except GrammarFault Expr
  | [] => .error .empty
  | .endOfInput :: _ => .error .empty
  | .lexeme kind text :: ts =>
    match (Reader.sum limit (Reader.operand limit (limit + 1))).read (.lexeme kind text :: ts) with
    | .error fault => .error fault
    | .ok r =>
      match r.rest with
      | [] => .ok r.tree
      | .endOfInput :: _ => .ok r.tree
      | .lexeme _ text :: _ => .error (.trailing text)

end Reckoner.Expr
