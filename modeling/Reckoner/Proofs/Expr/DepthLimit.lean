import Reckoner.Proofs.Expr.Agreement

namespace Reckoner.Expr

/-- The result is a refusal of depth under the limit, or else the other result. -/
def AgreesUpTo {α : Type} (limit : Nat) (x y : Except GrammarFault α) : Prop :=
  x = .error (.tooDeep limit) ∨ x = y

namespace AgreesUpTo

variable {limit : Nat}

theorem same {α : Type} (x : Except GrammarFault α) : AgreesUpTo limit x x :=
  .inr rfl

theorem bind {α β : Type} {x y : Except GrammarFault α} {f g : α → Except GrammarFault β}
    (first : AgreesUpTo limit x y) (then' : ∀ a, AgreesUpTo limit (f a) (g a)) :
    AgreesUpTo limit (x.bind f) (y.bind g) := by
  rcases first with rfl | rfl
  · exact .inl rfl
  · cases x with
    | error fault => exact same _
    | ok a => exact then' a

theorem within {limit' : Nat} (wider : limit ≤ limit') (r : Reading) :
    AgreesUpTo limit (r.within limit) (r.within limit') := by
  by_cases shallow : r.depth ≤ limit
  · rw [Reading.within_of_le shallow, Reading.within_of_le (Nat.le_trans shallow wider)]
    exact same _
  · exact .inl (if_pos (Nat.lt_of_not_le shallow))

end AgreesUpTo

namespace Reader

/-- The reader goes the way of the other one until it refuses a depth. -/
def Tracks (limit : Nat) (reader other : Reader) : Prop :=
  ∀ ts, AgreesUpTo limit (reader.read ts) (other.read ts)

section Wider

variable {limit limit' : Nat} {inner inner' : Reader}

theorem continueChain_tracks (wider : limit ≤ limit') (tracks : inner.Tracks limit inner')
    (operator? : Token → Option Operator) (left : Expr) (depth : Nat) (ts : List Token) :
    AgreesUpTo limit (continueChain limit operator? inner left depth ts)
      (continueChain limit' operator? inner' left depth ts) := by
  fun_induction continueChain limit operator? inner left depth ts with
  | case1 left depth =>
    rw [continueChain_nil]
    exact .same _
  | case2 left depth t ts stops =>
    rw [continueChain_stop stops]
    exact .same _
  | case3 left depth t ts operator continues fault failed =>
    rcases tracks ts with refused | same
    · rw [failed] at refused
      exact .inl refused
    · rw [continueChain_error continues (same.symm.trans failed)]
      exact .same _
  | case4 => exact .inl rfl
  | case5 left depth t ts operator continues right read shallow ih =>
    rcases tracks ts with refused | same
    · rw [read] at refused
      contradiction
    · have room : max depth right.depth + 1 ≤ limit' := by omega
      rw [continueChain_next continues (same.symm.trans read) room]
      exact ih

theorem Tracks.chain (wider : limit ≤ limit') (tracks : inner.Tracks limit inner')
    (operator? : Token → Option Operator) :
    (Reader.chain limit operator? inner).Tracks limit
      (Reader.chain limit' operator? inner') :=
  fun ts => (tracks ts).bind fun r =>
    continueChain_tracks wider tracks operator? r.tree r.depth r.rest

theorem Tracks.sum (wider : limit ≤ limit') (tracks : inner.Tracks limit inner') :
    (Reader.sum limit inner).Tracks limit (Reader.sum limit' inner') :=
  (tracks.chain wider Token.multiplicative?).chain wider Token.additive?

theorem grouped_agrees (wider : limit ≤ limit') (r : Reading) :
    AgreesUpTo limit (r.grouped limit) (r.grouped limit') := by
  unfold Reading.grouped
  split
  · exact .within wider _
  · exact .same _

theorem Tracks.enclosing (wider : limit ≤ limit') (tracks : inner.Tracks limit inner') :
    (Reader.enclosing limit inner).Tracks limit (Reader.enclosing limit' inner') := by
  intro ts
  cases ts with
  | nil => exact .same _
  | cons t ts =>
    cases t with
    | endOfInput => exact .same _
    | lexeme kind text =>
      cases kind with
      | numeral =>
        simp only [Reader.enclosing]
        cases Number.read? text with
        | none => exact .same _
        | some x => exact .within wider _
      | plus | minus => exact (tracks ts).bind fun r => .within wider _
      | leftParen => exact (tracks.sum wider ts).bind (grouped_agrees wider)
      | times | divide | rightParen => exact .same _

theorem operand_tracks (wider : limit ≤ limit') {levels levels' : Nat} (more : levels ≤ levels') :
    (operand limit levels).Tracks limit (operand limit' levels') := by
  induction levels generalizing levels' with
  | zero => exact fun _ => .inl rfl
  | succ levels ih =>
    cases levels' with
    | zero => contradiction
    | succ levels' =>
      rw [operand_succ, operand_succ]
      exact (ih (Nat.le_of_succ_le_succ more)).enclosing wider

end Wider

end Reader

theorem ofTokens_agrees {limit limit' : Nat} (wider : limit ≤ limit') (ts : List Token) :
    AgreesUpTo limit (ofTokens limit ts) (ofTokens limit' ts) := by
  match ts with
  | [] | .endOfInput :: _ => exact .same _
  | .lexeme kind text :: ts =>
    have tracks := Reader.operand_tracks wider (Nat.succ_le_succ wider)
    rw [ofTokens, ofTokens]
    rcases tracks.sum wider (.lexeme kind text :: ts) with refused | same
    · rw [refused]
      exact .inl rfl
    · rw [same]
      exact .same _

namespace Reader

def Thrifty (reader : Reader) : Prop :=
  ∀ (ts : List Token) (r : Reading), reader.read ts = .ok r → r.depth + r.rest.length ≤ ts.length

theorem Derives.thrifty {limit : Nat} {G : List Token → Expr → Prop} {reader : Reader}
    (derives : reader.Derives limit G)
    (bound : ∀ {ts : List Token} {t : Expr}, G ts t → t.depth ≤ ts.length) :
    reader.Thrifty := by
  intro ts r read
  obtain ⟨front, taken, derived, exactly, _⟩ := derives ts r read
  have tokens := congrArg List.length taken
  have deep := bound derived
  rw [List.length_append] at tokens
  omega

/-- No more tokens than the limit, and fewer than `levels`, are never too deep for the reader. -/
def Roomy (limit levels : Nat) (reader : Reader) : Prop :=
  ∀ ts : List Token, ts.length < levels → ts.length ≤ limit →
    ∀ n, reader.read ts ≠ .error (.tooDeep n)

section Roomy

variable {limit levels : Nat} {inner : Reader}

theorem continueChain_not_tooDeep (roomy : inner.Roomy limit levels) (thrifty : inner.Thrifty)
    {operator? : Token → Option Operator} {left : Expr} {depth : Nat} {ts : List Token}
    (few : ts.length ≤ levels) (room : depth + ts.length ≤ limit) (n : Nat) :
    continueChain limit operator? inner left depth ts ≠ .error (.tooDeep n) := by
  fun_induction continueChain limit operator? inner left depth ts with
  | case1 | case2 =>
    intro refused
    contradiction
  | case3 left depth t ts operator continues fault failed =>
    rw [List.length_cons] at few room
    intro refused
    cases refused
    exact roomy ts (by omega) (by omega) n failed
  | case4 left depth t ts operator continues right read deep =>
    have taken := thrifty ts right read
    rw [List.length_cons] at few room
    omega
  | case5 left depth t ts operator continues right read shallow ih =>
    have taken := thrifty ts right read
    rw [List.length_cons] at few room
    exact ih (by omega) (by omega)

theorem Roomy.chain (roomy : inner.Roomy limit levels) (thrifty : inner.Thrifty)
    (operator? : Token → Option Operator) :
    (Reader.chain limit operator? inner).Roomy limit levels := by
  intro ts few room n
  simp only [Reader.chain]
  cases read : inner.read ts with
  | error fault =>
    intro refused
    cases refused
    exact roomy ts few room n read
  | ok first =>
    have taken := thrifty ts first read
    exact continueChain_not_tooDeep roomy thrifty (by omega) (by omega) n

theorem Roomy.sum (roomy : inner.Roomy limit levels) (derives : inner.Derives limit IsOperand) :
    (Reader.sum limit inner).Roomy limit levels :=
  (roomy.chain (derives.thrifty IsOperand.depth_le) _).chain
    (derives.product.thrifty IsProduct.depth_le) _

/-- What encloses a reading is refused for depth only if the reading was, or if there is no room for
one more level. -/
theorem bind_not_tooDeep {x : Except GrammarFault Reading}
    {f : Reading → Except GrammarFault Reading} (inside : ∀ n, x ≠ .error (.tooDeep n))
    (closing : ∀ r, x = .ok r → ∀ n, f r ≠ .error (.tooDeep n)) (n : Nat) :
    x.bind f ≠ .error (.tooDeep n) := by
  cases x with
  | error fault =>
    intro refused
    cases refused
    exact inside n rfl
  | ok r => exact closing r rfl n

theorem within_not_tooDeep {r : Reading} (shallow : r.depth ≤ limit) (n : Nat) :
    r.within limit ≠ .error (.tooDeep n) := by
  rw [Reading.within_of_le shallow]
  intro refused
  contradiction

theorem Roomy.enclosing (roomy : inner.Roomy limit levels)
    (derives : inner.Derives limit IsOperand) :
    (Reader.enclosing limit inner).Roomy limit (levels + 1) := by
  intro ts few room n
  cases ts with
  | nil => simp [Reader.enclosing]
  | cons t ts =>
    rw [List.length_cons] at few room
    have fewer : ts.length < levels := Nat.lt_of_succ_lt_succ few
    have narrower : ts.length ≤ limit := Nat.le_of_succ_le room
    cases t with
    | endOfInput => simp [Reader.enclosing]
    | lexeme kind text =>
      cases kind with
      | numeral =>
        simp only [Reader.enclosing]
        cases Number.read? text with
        | none => simp
        | some x => exact within_not_tooDeep (by simp only; omega) n
      | plus | minus =>
        refine bind_not_tooDeep (roomy ts fewer narrower) ?_ n
        intro r read
        have taken := derives.thrifty IsOperand.depth_le ts r read
        exact within_not_tooDeep (by simp only; omega)
      | leftParen =>
        refine bind_not_tooDeep (roomy.sum derives ts fewer narrower) ?_ n
        intro r read
        have taken := derives.sum.thrifty IsSum.depth_le ts r read
        unfold Reading.grouped
        split
        · exact within_not_tooDeep (by simp only; omega)
        · simp
      | times | divide | rightParen => simp [Reader.enclosing]

theorem operand_roomy (limit levels : Nat) : (operand limit levels).Roomy limit levels := by
  induction levels with
  | zero => exact fun ts few => absurd few (Nat.not_lt_zero _)
  | succ levels ih =>
    rw [operand_succ]
    exact ih.enclosing (operand_derives limit levels)

end Roomy

end Reader

theorem ofTokens_not_tooDeep {limit : Nat} {ts : List Token} (room : ts.length ≤ limit) (n : Nat) :
    ofTokens limit ts ≠ .error (.tooDeep n) := by
  have roomy := (Reader.operand_roomy limit (limit + 1)).sum
    (Reader.operand_derives limit (limit + 1))
  intro refused
  unfold ofTokens at refused
  split at refused
  · cases refused
  · cases refused
  · split at refused
    · next fault failed =>
      cases refused
      exact roomy _ (Nat.lt_succ_of_le room) room n failed
    · split at refused <;> cases refused

/-- A limit has no effect but to refuse deeper trees: unless depth is refused, a larger limit gives
the same result; a limit as large as the number of tokens refuses no depth; and what is read under
one limit is read under every other that its depth is within, and refused for its depth under the
rest. -/
theorem ofTokens_limit_exact (ts : List Token) :
    (∀ limit limit', limit ≤ limit' → (∀ n, ofTokens limit ts ≠ .error (.tooDeep n)) →
        ofTokens limit' ts = ofTokens limit ts) ∧
      (∀ limit, ts.length ≤ limit → ∀ n, ofTokens limit ts ≠ .error (.tooDeep n)) ∧
      ∀ limit t, ofTokens limit ts = .ok t → ∀ limit', ofTokens limit' ts =
        if t.depth ≤ limit' then .ok t else .error (.tooDeep limit') := by
  refine ⟨?_, ?_, ?_⟩
  · intro limit limit' wider allowed
    rcases ofTokens_agrees wider ts with refused | same
    · exact absurd refused (allowed limit)
    · exact same.symm
  · intro limit room n
    exact ofTokens_not_tooDeep room n
  · intro limit t read limit'
    obtain ⟨derived, _⟩ := derived_of_ofTokens read
    by_cases within : t.depth ≤ limit'
    · rw [if_pos within]
      exact ofTokens_of_derived derived within
    · rw [if_neg within]
      -- compare with a limit that the tree is within: the result cannot be the same
      rcases ofTokens_agrees (Nat.le_max_left limit' t.depth) ts with refused | same
      · exact refused
      · have read := ofTokens_of_derived derived (Nat.le_max_right limit' t.depth)
        exact absurd (derived_of_ofTokens (same.trans read)).2 within

/-- A negated group of depth three: four tokens are room enough, and two levels are not. -/
theorem ofTokens_limit_group :
    let ts : List Token :=
      [.lexeme .minus "-", .lexeme .leftParen "(", .lexeme .numeral "1", .lexeme .rightParen ")"]
    (∀ n, ofTokens 3 ts ≠ .error (.tooDeep n)) ∧ ofTokens 4 ts = ofTokens 3 ts ∧
      (∀ n, ofTokens 4 ts ≠ .error (.tooDeep n)) ∧
      ofTokens 4 ts = .ok (.signed .minus (.group (.number 1))) ∧
      ofTokens 2 ts = .error (.tooDeep 2) := by
  intro ts
  obtain ⟨wider, room, exactly⟩ := ofTokens_limit_exact ts
  have read : ofTokens 3 ts = .ok (.signed .minus (.group (.number 1))) := by decide +kernel
  have allowed : ∀ n, ofTokens 3 ts ≠ .error (.tooDeep n) := by
    intro n refused
    rw [read] at refused
    contradiction
  have same := wider 3 4 (by decide) allowed
  exact ⟨allowed, same, room 4 (by decide), same.trans read, exactly 3 _ read 2⟩

end Reckoner.Expr
