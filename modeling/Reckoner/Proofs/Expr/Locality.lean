import Reckoner.Proofs.Expr.FirstFault

namespace Reckoner.Expr

def MarksEnd (more : List Token) : Prop :=
  ∃ others, more = .endOfInput :: others

def Reading.followedBy (more : List Token) (r : Reading) : Reading :=
  { r with rest := r.rest ++ more }

namespace Reader

/-- The outcome is due to a token that was looked at, and not to the end of the list. -/
def Final : Except GrammarFault Reading → Prop
  | .ok r => r.rest ≠ []
  | .error fault => (shown? fault).isSome = true

/-- The second outcome is the first one with more tokens behind, unless the first could still have
changed with them. -/
def Persists (more : List Token) (x y : Except GrammarFault Reading) : Prop :=
  MarksEnd more ∨ Final x → y = x.map (Reading.followedBy more)

def Local (more : List Token) (reader : Reader) : Prop :=
  ∀ ts, Persists more (reader.read ts) (reader.read (ts ++ more))

section Persists

variable {limit : Nat} {more : List Token}

theorem Persists.of_eq {x y : Except GrammarFault Reading}
    (same : y = x.map (Reading.followedBy more)) : Persists more x y :=
  fun _ => same

theorem Persists.of_not_final {x y : Except GrammarFault Reading} (open' : ¬ Final x)
    (marked : MarksEnd more → y = x.map (Reading.followedBy more)) : Persists more x y := by
  rintro (ends | final)
  · exact marked ends
  · exact absurd final open'

/-- A step after a reading persists if nothing is final after a reading that left no token. -/
theorem Persists.bind {x y : Except GrammarFault Reading}
    {f : Reading → Except GrammarFault Reading} (first : Persists more x y)
    (needs : ∀ r, r.rest = [] → ¬ Final (f r))
    (later : ∀ r, Persists more (f r) (f (r.followedBy more))) :
    Persists more (x.bind f) (y.bind f) := by
  intro settled
  cases x with
  | error fault =>
    have same : y = .error fault := first settled
    rw [same]
    rfl
  | ok r =>
    have looked : MarksEnd more ∨ Final (.ok r) :=
      settled.imp_right fun final none => needs r none final
    have same : y = .ok (r.followedBy more) := first looked
    rw [same]
    exact later r settled

theorem within_persists (r : Reading) :
    Persists more (r.within limit) ((r.followedBy more).within limit) := by
  apply Persists.of_eq
  unfold Reading.within Reading.followedBy
  dsimp only
  split <;> rfl

theorem not_final_within {r : Reading} (none : r.rest = []) : ¬ Final (r.within limit) := by
  intro final
  unfold Reading.within at final
  split at final
  · contradiction
  · exact final none

theorem grouped_persists (r : Reading) :
    Persists more (r.grouped limit) ((r.followedBy more).grouped limit) := by
  obtain ⟨tree, depth, rest⟩ := r
  cases rest with
  | nil =>
    apply Persists.of_not_final
    · intro final
      contradiction
    · rintro ⟨others, rfl⟩
      rfl
  | cons t rest =>
    cases t with
    | endOfInput => exact .of_eq rfl
    | lexeme kind text =>
      cases kind with
      | rightParen => exact within_persists _
      | numeral | plus | minus | times | divide | leftParen => exact .of_eq rfl

theorem not_final_grouped {r : Reading} (none : r.rest = []) : ¬ Final (r.grouped limit) := by
  unfold Reading.grouped
  rw [none]
  intro final
  contradiction

end Persists

section Local

variable {limit : Nat} {more : List Token} {operator? : Token → Option Operator}

theorem continueChain_persists {operand : Reader} (local' : operand.Local more)
    (ends : operator? .endOfInput = none) (left : Expr) (depth : Nat) (ts : List Token) :
    Persists more (continueChain limit operator? operand left depth ts)
      (continueChain limit operator? operand left depth (ts ++ more)) := by
  fun_induction continueChain limit operator? operand left depth ts with
  | case1 left depth =>
    apply Persists.of_not_final
    · exact fun some => some rfl
    · rintro ⟨others, rfl⟩
      exact continueChain_stop ends
  | case2 left depth t ts stops => exact .of_eq (continueChain_stop stops)
  | case3 left depth t ts operator continues fault failed =>
    intro settled
    have same := local' ts
    rw [failed] at same
    exact continueChain_error continues (same settled)
  | case4 left depth t ts operator continues right read deep =>
    apply Persists.of_not_final
    · intro final
      contradiction
    · intro marked
      have same := local' ts (.inl marked)
      rw [read] at same
      exact continueChain_tooDeep continues same deep
  | case5 left depth t ts operator continues right read shallow ih =>
    intro settled
    have same := local' ts
    rw [read] at same
    -- with no token left, the chain would have come to the end of the list
    have looked : MarksEnd more ∨ Final (.ok right) := by
      refine settled.imp_right fun final none => ?_
      rw [none, continueChain_nil] at final
      exact final rfl
    rw [List.cons_append, continueChain_next continues (same looked) (Nat.le_of_not_lt shallow)]
    exact ih settled

theorem Local.chain {operand : Reader} (local' : operand.Local more)
    (ends : operator? .endOfInput = none) :
    (Reader.chain limit operator? operand).Local more := by
  intro ts
  refine (local' ts).bind ?_ ?_
  · intro r none
    rw [none, continueChain_nil]
    exact fun some => some rfl
  · intro r
    exact continueChain_persists local' ends r.tree r.depth r.rest

theorem Local.sum {operand : Reader} (local' : operand.Local more) :
    (Reader.sum limit operand).Local more :=
  (local'.chain rfl).chain rfl

theorem signed_persists {x y : Except GrammarFault Reading} (first : Persists more x y)
    (sign : Sign) :
    Persists more (x.bind (Reading.signed limit sign)) (y.bind (Reading.signed limit sign)) :=
  first.bind (fun _ none => not_final_within none) fun _ => within_persists _

theorem Local.enclosing {inner : Reader} (local' : inner.Local more) :
    (Reader.enclosing limit inner).Local more := by
  intro ts
  cases ts with
  | nil =>
    apply Persists.of_not_final
    · intro final
      contradiction
    · rintro ⟨others, rfl⟩
      rfl
  | cons t ts =>
    cases t with
    | endOfInput => exact .of_eq rfl
    | lexeme kind text =>
      cases kind with
      | numeral =>
        simp only [Reader.enclosing, List.cons_append]
        cases Number.read? text with
        | none => exact .of_eq rfl
        | some x => exact within_persists _
      | plus => exact signed_persists (local' ts) .plus
      | minus => exact signed_persists (local' ts) .minus
      | leftParen =>
        exact (local'.sum ts).bind (fun _ none => not_final_grouped none) grouped_persists
      | times | divide | rightParen => exact .of_eq rfl

theorem operand_local (limit levels : Nat) (more : List Token) :
    (operand limit levels).Local more := by
  induction levels with
  | zero => exact fun _ => .of_eq rfl
  | succ levels ih =>
    rw [operand_succ]
    exact ih.enclosing

end Local

end Reader

/-- The result stays as it is with more tokens behind, if those begin with the end of the input or if
a token was rejected. -/
theorem ofTokens_append {limit : Nat} {ts more : List Token}
    (settled : MarksEnd more ∨
      ∃ fault, ofTokens limit ts = .error fault ∧ (shown? fault).isSome = true) :
    ofTokens limit (ts ++ more) = ofTokens limit ts := by
  match ts with
  | [] =>
    rcases settled with ⟨others, rfl⟩ | ⟨fault, failed, shown⟩
    · rfl
    · cases failed
      contradiction
  | .endOfInput :: ts => rfl
  | .lexeme kind text :: ts =>
    have local' : (Reader.sum limit (Reader.operand limit (limit + 1))).Local more :=
      (Reader.operand_local limit (limit + 1) more).sum
    have same := local' (.lexeme kind text :: ts)
    rw [List.cons_append] at same
    rw [List.cons_append, ofTokens, ofTokens]
    cases read : (Reader.sum limit (Reader.operand limit (limit + 1))).read
        (.lexeme kind text :: ts) with
    | error fault =>
      have looked : MarksEnd more ∨ Reader.Final (.error fault) := by
        refine settled.imp_right ?_
        rintro ⟨other, failed, shown⟩
        rw [ofTokens, read] at failed
        cases failed
        exact shown
      rw [read] at same
      rw [same looked]
      rfl
    | ok r =>
      have looked : MarksEnd more ∨ Reader.Final (.ok r) := by
        refine settled.imp_right ?_
        rintro ⟨fault, failed, _⟩ none
        rw [ofTokens, read] at failed
        simp only [none] at failed
        contradiction
      rw [read] at same
      rw [same looked]
      obtain ⟨tree, depth, rest⟩ := r
      cases rest with
      | nil =>
        obtain ⟨others, rfl⟩ : MarksEnd more := looked.resolve_right fun some => some rfl
        rfl
      | cons t rest => cases t <;> rfl

theorem ofTokens_content (limit : Nat) (ts : List Token) :
    ofTokens limit (Token.content ts) = ofTokens limit ts := by
  obtain ⟨rest, split, atEnd⟩ := content_split ts
  cases rest with
  | nil =>
    rw [List.append_nil] at split
    rw [← split]
  | cons t rest =>
    obtain rfl : t = .endOfInput := atEnd t rfl
    have same : ofTokens limit (Token.content ts ++ .endOfInput :: rest) =
        ofTokens limit (Token.content ts) := ofTokens_append (.inl ⟨rest, rfl⟩)
    rw [← split] at same
    exact same.symm

/-- Reading stops at the end of the input: whether that is marked, and what comes after the first
mark, makes no difference. It also stops at the first token that it rejects, and gives the same fault
whatever comes after that. -/
theorem ofTokens_looks_no_further (limit : Nat) (ts more : List Token) :
    ofTokens limit (ts ++ [.endOfInput] ++ more) = ofTokens limit ts ∧
      ofTokens limit (Token.content ts) = ofTokens limit ts ∧
      ∀ fault text, fault ∈ [.unexpectedToken text, .badNumeral text, .trailing text] →
        ofTokens limit ts = .error fault → ofTokens limit (ts ++ more) = .error fault := by
  refine ⟨?_, ofTokens_content limit ts, ?_⟩
  · rw [List.append_assoc]
    exact ofTokens_append (.inl ⟨more, rfl⟩)
  · intro fault text rejects failed
    have shown : (shown? fault).isSome = true := by
      simp only [List.mem_cons, List.not_mem_nil, or_false] at rejects
      rcases rejects with rfl | rfl | rfl <;> rfl
    rw [ofTokens_append (.inr ⟨fault, failed, shown⟩), failed]

/-- In `2 * (1 + )` the parenthesis is rejected under a limit that the whole would not be within. -/
theorem ofTokens_looks_no_further_product :
    let ts : List Token :=
      [.lexeme .numeral "2", .lexeme .times "*", .lexeme .leftParen "(", .lexeme .numeral "1",
        .lexeme .plus "+", .lexeme .rightParen ")"]
    let more : List Token := [.lexeme .minus "-", .endOfInput, .lexeme .numeral "x"]
    ofTokens 1 ts = .error (.unexpectedToken ")") ∧
      ofTokens 1 (ts ++ more) = .error (.unexpectedToken ")") ∧
      ofTokens 1 (ts ++ [.endOfInput] ++ more) = .error (.unexpectedToken ")") := by
  intro ts more
  obtain ⟨marked, _, rejected⟩ := ofTokens_looks_no_further 1 ts more
  have failed : ofTokens 1 ts = .error (.unexpectedToken ")") := by decide +kernel
  exact ⟨failed, rejected _ ")" List.mem_cons_self failed, marked.trans failed⟩

end Reckoner.Expr
