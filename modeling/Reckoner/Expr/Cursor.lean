import Reckoner.Expr.Reading

namespace Reckoner

/-- A sign or a left parenthesis: an operand that begins with it encloses another one. -/
def Token.opens : Token → Bool
  | .lexeme .plus _ | .lexeme .minus _ | .lexeme .leftParen _ => true
  | _ => false

namespace Expr

/-- The tokens that are left, and how many signs and parentheses are open. -/
structure Cursor where
  rest : List Token
  nesting : Nat
deriving DecidableEq, Repr

/-- The next token. Behind the last one the input ends. -/
def Cursor.token (c : Cursor) : Token :=
  c.rest.headD .endOfInput

def Cursor.next (c : Cursor) : Cursor :=
  { c with rest := c.rest.tail }

structure Subtree where
  tree : Expr
  depth : Nat
deriving DecidableEq

inductive Part where
  | sum
  | product
  | operand
  | enclosed
deriving DecidableEq, Repr

structure Call where
  part : Part
  entry : Cursor
  result : Except GrammarFault Subtree
  exit : Cursor

/-- What happens on the way, in order: sums, and calls with what happens during them. -/
inductive Trace where
  | nil
  | sum (value : Nat) (later : Trace)
  | call (made : Call) (inner later : Trace)

def Trace.append : Trace → Trace → Trace
  | nil, trace => trace
  | sum value later, trace => sum value (later.append trace)
  | call made inner later, trace => call made inner (later.append trace)

structure Outcome (α : Type) where
  result : Except GrammarFault α
  cursor : Cursor
  trace : Trace

def Outcome.after {α : Type} (earlier : Trace) (o : Outcome α) : Outcome α :=
  { o with trace := earlier.append o.trace }

/-- A walk that fails leaves the cursor where it is, and what happened before it stays. -/
def Walk (α : Type) : Type :=
  Cursor → Outcome α

namespace Walk

instance : Monad Walk where
  pure a := fun c => ⟨.ok a, c, .nil⟩
  bind walk further := fun c =>
    match walk c with
    | ⟨.error fault, c, trace⟩ => ⟨.error fault, c, trace⟩
    | ⟨.ok a, c, trace⟩ => (further a c).after trace

section

variable {α β : Type} {walk : Walk α} {further : α → Walk β} {c c' : Cursor} {trace : Trace}

theorem bind_of_ok {a : α} (h : walk c = ⟨.ok a, c', trace⟩) :
    (walk >>= further) c = (further a c').after trace := by
  simp only [Bind.bind, h]

theorem bind_of_error {fault : GrammarFault} (h : walk c = ⟨.error fault, c', trace⟩) :
    (walk >>= further) c = ⟨.error fault, c', trace⟩ := by
  simp only [Bind.bind, h]

end

def fail {α : Type} (fault : GrammarFault) : Walk α :=
  fun c => ⟨.error fault, c, .nil⟩

def peek : Walk Token :=
  fun c => ⟨.ok c.token, c, .nil⟩

def advance : Walk Token :=
  fun c => ⟨.ok c.token, c.next, .nil⟩

@[simp]
theorem bind_peek {α : Type} (further : Token → Walk α) (c : Cursor) :
    (peek >>= further) c = further c.token c :=
  rfl

@[simp]
theorem bind_advance {α : Type} (further : Token → Walk α) (c : Cursor) :
    (advance >>= further) c = further c.token c.next :=
  rfl

def remaining : Walk Nat :=
  fun c => ⟨.ok c.rest.length, c, .nil⟩

/-- Keeps the call of a walk, with the cursor at its entry and at its exit. -/
def recorded (part : Part) (walk : Walk Subtree) : Walk Subtree :=
  fun c =>
    let o := walk c
    { o with trace := .call ⟨part, c, o.result, o.cursor⟩ o.trace .nil }

section

variable (stored : Nat → Nat) (limit : Nat)

/-- Computes `n + 1`, and gives what a counter holds of it. -/
def successor (n : Nat) : Walk Nat :=
  fun c => ⟨.ok (stored (n + 1)), c, .sum (n + 1) .nil⟩

def within (tree : Expr) (depth : Nat) : Walk Subtree :=
  if limit < depth then fail (.tooDeep limit) else pure ⟨tree, depth⟩

/-- Goes one level deeper, unless as many levels as the limit are open, and comes back whether the
walk succeeds or not. -/
def nested (walk : Walk Subtree) : Walk Subtree :=
  recorded .enclosed fun c =>
    if limit ≤ c.nesting then ⟨.error (.tooDeep limit), c, .nil⟩
    else
      let o := walk { c with nesting := stored (c.nesting + 1) }
      { o with
        cursor := { o.cursor with nesting := o.cursor.nesting - 1 }
        trace := .sum (c.nesting + 1) o.trace }

/-- As long as an operator follows, reads its right operand and folds the two to the left. Every
round takes a token, so that as many rounds as tokens are left are enough. -/
def fold (operator? : Token → Option Operator) (operand : Walk Subtree) :
    (rounds : Nat) → Subtree → Walk Subtree
  | 0, first => pure first
  | rounds + 1, first => do
    match operator? (← peek) with
    | none => pure first
    | some operator =>
      let _ ← advance
      let second ← operand
      let depth ← successor stored (max first.depth second.depth)
      let both ← within limit (.binary first.tree operator second.tree) depth
      fold operator? operand rounds both

def chain (operator? : Token → Option Operator) (operand : Walk Subtree) : Walk Subtree := do
  let first ← operand
  fold stored limit operator? operand (← remaining) first

def product (operand : Walk Subtree) : Walk Subtree :=
  recorded .product (chain stored limit Token.multiplicative? operand)

def sum (operand : Walk Subtree) : Walk Subtree :=
  recorded .sum (chain stored limit Token.additive? (product stored limit operand))

def signed (sign : Sign) (inner : Walk Subtree) : Walk Subtree := do
  let operand ← nested stored limit inner
  let depth ← successor stored operand.depth
  within limit (.signed sign operand.tree) depth

def grouped (inner : Walk Subtree) : Walk Subtree := do
  let subtree ← nested stored limit (sum stored limit inner)
  match ← advance with
  | .lexeme .rightParen _ =>
    let depth ← successor stored subtree.depth
    within limit (.group subtree.tree) depth
  | _ => fail .unclosed

/-- Reads one operand; `inner` reads the operands that a sign or a parenthesis encloses. -/
def enclosing (inner : Walk Subtree) : Walk Subtree := do
  match ← advance with
  | .endOfInput => fail .unexpectedEnd
  | .lexeme kind text =>
    match kind with
    | .numeral =>
      match Number.read? text with
      | some x => within limit (.number x) 1
      | none => fail (.badNumeral text)
    | .plus => signed stored limit .plus inner
    | .minus => signed stored limit .minus inner
    | .leftParen => grouped stored limit inner
    | .times | .divide | .rightParen => fail (.unexpectedToken text)

/-- Reads an operand when no more than `tokens` tokens are left: each operand within another one
leaves fewer, and where none is left an operand is missing. -/
def operand : (tokens : Nat) → Walk Subtree
  | 0 => recorded .operand (fail .unexpectedEnd)
  | tokens + 1 => recorded .operand (enclosing stored limit (operand tokens))

def ended (subtree : Subtree) : Walk Expr := do
  match ← peek with
  | .endOfInput => pure subtree.tree
  | .lexeme _ text => fail (.trailing text)

def whole (tokens : Nat) : Walk Expr := do
  match ← peek with
  | .endOfInput => fail .empty
  | .lexeme _ _ =>
    let subtree ← sum stored limit (operand stored limit tokens)
    ended subtree

end

end Walk

def traced (stored : Nat → Nat) (limit : Nat) (ts : List Token) : Outcome Expr :=
  Walk.whole stored limit ts.length ⟨ts, 0⟩

def wrapped (n : Nat) : Nat :=
  n % UInt64.size

end Expr

end Reckoner
