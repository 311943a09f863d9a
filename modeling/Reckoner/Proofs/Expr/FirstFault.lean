import Reckoner.Expr.Fault
import Reckoner.Proofs.Expr.DepthLimit

namespace Reckoner.Expr

def faultAfter? (opened : Nat) : Except GrammarFault Reading → Option GrammarFault
  | .error fault => some fault
  | .ok r => faultFrom? true opened r.rest

theorem faultFrom?_additive {t : Token} {operator : Operator}
    (additive : t.additive? = some operator) (opened : Nat) (ts : List Token) :
    faultFrom? true opened (t :: ts) = faultFrom? false opened ts := by
  match t with
  | .lexeme .plus _ | .lexeme .minus _ => rfl
  | .endOfInput | .lexeme .times _ | .lexeme .divide _ | .lexeme .numeral _
  | .lexeme .leftParen _ | .lexeme .rightParen _ => contradiction

theorem faultFrom?_multiplicative {t : Token} {operator : Operator}
    (multiplicative : t.multiplicative? = some operator) (opened : Nat) (ts : List Token) :
    faultFrom? true opened (t :: ts) = faultFrom? false opened ts := by
  match t with
  | .lexeme .times _ | .lexeme .divide _ => rfl
  | .endOfInput | .lexeme .plus _ | .lexeme .minus _ | .lexeme .numeral _
  | .lexeme .leftParen _ | .lexeme .rightParen _ => contradiction

namespace Reader

def Stops (operator? : Token → Option Operator) (reader : Reader) : Prop :=
  ∀ (ts : List Token) (r : Reading), reader.read ts = .ok r → Ends operator? r.rest

section Stops

variable {limit : Nat} {operator? other? : Token → Option Operator} {operand : Reader}
  {left : Expr} {depth : Nat} {ts : List Token} {r : Reading}

theorem continueChain_stops
    (read : continueChain limit operator? operand left depth ts = .ok r) :
    Ends operator? r.rest := by
  fun_induction continueChain limit operator? operand left depth ts with
  | case1 =>
    cases read
    intro t first
    contradiction
  | case2 left depth t ts stops =>
    cases read
    intro first same
    cases same
    exact stops
  | case3 | case4 => contradiction
  | case5 left depth t ts operator continues right taken shallow ih => exact ih read

theorem continueChain_stops_of_operand (stops : operand.Stops other?) (ends : Ends other? ts)
    (read : continueChain limit operator? operand left depth ts = .ok r) :
    Ends other? r.rest := by
  fun_induction continueChain limit operator? operand left depth ts with
  | case1 | case2 =>
    cases read
    exact ends
  | case3 | case4 => contradiction
  | case5 left depth t ts operator continues right taken shallow ih =>
    exact ih (stops ts right taken) read

theorem chain_stops : (chain limit operator? operand).Stops operator? := by
  intro ts r read
  obtain ⟨first, _, read⟩ := bind_eq_ok read
  exact continueChain_stops read

theorem Stops.chain (stops : operand.Stops other?) :
    (Reader.chain limit operator? operand).Stops other? := by
  intro ts r read
  obtain ⟨first, taken, read⟩ := bind_eq_ok read
  exact continueChain_stops_of_operand stops (stops ts first taken) read

theorem sum_stops_additive : (sum limit operand).Stops Token.additive? :=
  chain_stops

theorem sum_stops_multiplicative : (sum limit operand).Stops Token.multiplicative? :=
  chain_stops.chain

end Stops

/-- The scan of the tokens ends as the reading does, unless that was refused for its depth. -/
def ScansTo (limit : Nat) (operatorDue : Bool) (ts : List Token)
    (x : Except GrammarFault Reading) : Prop :=
  x = .error (.tooDeep limit) ∨ ∀ opened, faultFrom? operatorDue opened ts = faultAfter? opened x

def Scans (limit : Nat) (reader : Reader) : Prop :=
  ∀ ts, ScansTo limit false ts (reader.read ts)

section Scans

variable {limit : Nat} {operator? : Token → Option Operator}

theorem continueChain_scans {operand : Reader} (scans : operand.Scans limit)
    (passes : ∀ {t : Token} {operator : Operator}, operator? t = some operator →
      ∀ opened ts, faultFrom? true opened (t :: ts) = faultFrom? false opened ts)
    (left : Expr) (depth : Nat) (ts : List Token) :
    ScansTo limit true ts (continueChain limit operator? operand left depth ts) := by
  fun_induction continueChain limit operator? operand left depth ts with
  | case1 | case2 => exact .inr fun _ => rfl
  | case3 left depth t ts operator continues fault failed =>
    have further := scans ts
    rw [failed] at further
    rcases further with refused | same
    · exact .inl refused
    · exact .inr fun opened => (passes continues opened ts).trans (same opened)
  | case4 => exact .inl rfl
  | case5 left depth t ts operator continues right read shallow ih =>
    have further := scans ts
    rw [read] at further
    rcases further with refused | same
    · contradiction
    · rcases ih with refused | others
      · exact .inl refused
      · right
        intro opened
        calc faultFrom? true opened (t :: ts)
          _ = faultFrom? false opened ts := passes continues opened ts
          _ = faultFrom? true opened right.rest := same opened
          _ = _ := others opened

theorem Scans.chain {operand : Reader} (scans : operand.Scans limit)
    (passes : ∀ {t : Token} {operator : Operator}, operator? t = some operator →
      ∀ opened ts, faultFrom? true opened (t :: ts) = faultFrom? false opened ts) :
    (Reader.chain limit operator? operand).Scans limit := by
  intro ts
  have further := scans ts
  simp only [Reader.chain]
  cases read : operand.read ts with
  | error fault => rwa [read] at further
  | ok first =>
    rw [read] at further
    rcases further with refused | same
    · contradiction
    · rcases continueChain_scans scans passes first.tree first.depth first.rest with
        refused | others
      · exact .inl refused
      · exact .inr fun opened => (same opened).trans (others opened)

theorem Scans.sum {operand : Reader} (scans : operand.Scans limit) :
    (Reader.sum limit operand).Scans limit :=
  (scans.chain faultFrom?_multiplicative).chain faultFrom?_additive

theorem within_scansTo {r : Reading} {operatorDue : Bool} {ts : List Token}
    (same : ∀ opened, faultFrom? operatorDue opened ts = faultFrom? true opened r.rest) :
    ScansTo limit operatorDue ts (r.within limit) := by
  by_cases shallow : r.depth ≤ limit
  · rw [Reading.within_of_le shallow]
    exact .inr same
  · exact .inl (if_pos (Nat.lt_of_not_le shallow))

theorem signed_scansTo {ts : List Token} {x : Except GrammarFault Reading}
    (scans : ScansTo limit false ts x) (sign : Sign) :
    ScansTo limit false ts (x.bind (Reading.signed limit sign)) := by
  rcases scans with rfl | same
  · exact .inl rfl
  · cases x with
    | error fault => exact .inr same
    | ok r => exact within_scansTo same

/-- Where no operator goes on, the input ends, or a numeral or a parenthesis stands. -/
theorem continues_cases {rest : List Token} (sums : Ends Token.additive? rest)
    (products : Ends Token.multiplicative? rest) :
    rest = [] ∨ (∃ more, rest = .endOfInput :: more) ∨ ∃ kind text more,
      rest = .lexeme kind text :: more ∧
        (kind = .numeral ∨ kind = .leftParen ∨ kind = .rightParen) := by
  cases rest with
  | nil => exact .inl rfl
  | cons t more =>
    have sum := sums t rfl
    have product := products t rfl
    cases t with
    | endOfInput => exact .inr (.inl ⟨more, rfl⟩)
    | lexeme kind text =>
      refine .inr (.inr ⟨kind, text, more, rfl, ?_⟩)
      cases kind with
      | numeral | leftParen | rightParen => simp
      | plus | minus | times | divide => contradiction

/-- A reading that no operator follows can only be closed: with one more parenthesis open, the scan
demands the same. -/
theorem grouped_scansTo {text : String} {ts : List Token} {r : Reading}
    (same : ∀ opened, faultFrom? false opened ts = faultFrom? true opened r.rest)
    (sums : Ends Token.additive? r.rest) (products : Ends Token.multiplicative? r.rest) :
    ScansTo limit false (.lexeme .leftParen text :: ts) (r.grouped limit) := by
  have opens (opened : Nat) : faultFrom? false opened (.lexeme .leftParen text :: ts) =
      faultFrom? true (opened + 1) r.rest := same (opened + 1)
  obtain ⟨tree, depth, rest⟩ := r
  rcases continues_cases sums products with rfl | ⟨_, rfl⟩ | ⟨kind, text, _, rfl, closing⟩
  · exact .inr opens
  · exact .inr opens
  · rcases closing with rfl | rfl | rfl
    · exact .inr opens
    · exact .inr opens
    · exact within_scansTo opens

theorem Scans.enclosing {inner : Reader} (scans : inner.Scans limit) :
    (Reader.enclosing limit inner).Scans limit := by
  intro ts
  cases ts with
  | nil => exact .inr fun _ => rfl
  | cons t ts =>
    cases t with
    | endOfInput => exact .inr fun _ => rfl
    | lexeme kind text =>
      cases kind with
      | numeral =>
        simp only [Reader.enclosing]
        cases readable : Number.read? text with
        | none =>
          right
          intro opened
          simp [faultFrom?, faultAfter?, readable]
        | some x =>
          apply within_scansTo
          intro opened
          simp [faultFrom?, readable]
      | plus => exact signed_scansTo (scans ts) .plus
      | minus => exact signed_scansTo (scans ts) .minus
      | leftParen =>
        simp only [Reader.enclosing]
        have further := scans.sum ts
        cases read : (Reader.sum limit inner).read ts with
        | error fault =>
          rw [read] at further
          rcases further with refused | same
          · exact .inl refused
          · exact .inr fun opened => same (opened + 1)
        | ok r =>
          rw [read] at further
          rcases further with refused | same
          · contradiction
          · exact grouped_scansTo same (sum_stops_additive ts r read)
              (sum_stops_multiplicative ts r read)
      | times | divide | rightParen => exact .inr fun _ => rfl

theorem operand_scans (limit levels : Nat) : (operand limit levels).Scans limit := by
  induction levels with
  | zero => exact fun _ => .inl rfl
  | succ levels ih =>
    rw [operand_succ]
    exact ih.enclosing

end Scans

end Reader

def faultOf? : Except GrammarFault Expr → Option GrammarFault
  | .error fault => some fault
  | .ok _ => none

theorem ofTokens_scans (limit : Nat) (ts : List Token) :
    ofTokens limit ts = .error (.tooDeep limit) ∨ faultOf? (ofTokens limit ts) = fault? ts := by
  match ts with
  | [] | .endOfInput :: _ => exact .inr rfl
  | .lexeme kind text :: ts =>
    have scans := (Reader.operand_scans limit (limit + 1)).sum (.lexeme kind text :: ts)
    rw [ofTokens]
    cases read : (Reader.sum limit (Reader.operand limit (limit + 1))).read
        (.lexeme kind text :: ts) with
    | error fault =>
      rw [read] at scans
      rcases scans with refused | same
      · cases refused
        exact .inl rfl
      · exact .inr (same 0).symm
    | ok r =>
      have sums := Reader.sum_stops_additive _ r read
      have products := Reader.sum_stops_multiplicative _ r read
      rw [read] at scans
      rcases scans with refused | same
      · contradiction
      · right
        have further : fault? (.lexeme kind text :: ts) = faultFrom? true 0 r.rest := same 0
        rw [further]
        obtain ⟨tree, depth, rest⟩ := r
        rcases Reader.continues_cases sums products with
          rfl | ⟨_, rfl⟩ | ⟨other, _, _, rfl, closing⟩
        · rfl
        · rfl
        · rcases closing with rfl | rfl | rfl <;> rfl

def shown? : GrammarFault → Option String
  | .unexpectedToken text | .trailing text | .badNumeral text => some text
  | .empty | .unexpectedEnd | .unclosed | .tooDeep _ => none

/-- A fault that shows a text is about a token with that text. A numeral that it is about is no
number. -/
def IsAbout (fault : GrammarFault) (text : String) (ts : List Token) : Prop :=
  ∃ kind, .lexeme kind text ∈ ts ∧
    (fault = .badNumeral text → kind = .numeral ∧ Number.read? text = none)

theorem IsAbout.cons {fault : GrammarFault} {text : String} {ts : List Token} (t : Token)
    (about : IsAbout fault text ts) : IsAbout fault text (t :: ts) := by
  obtain ⟨kind, member, readable⟩ := about
  exact ⟨kind, List.mem_cons_of_mem t member, readable⟩

theorem IsAbout.first {fault : GrammarFault} {text : String} {kind : Kind} {ts : List Token}
    (legible : fault ≠ .badNumeral text) : IsAbout fault text (.lexeme kind text :: ts) :=
  ⟨kind, List.mem_cons_self, fun same => absurd same legible⟩

theorem shown?_at_end {operatorDue : Bool} {opened : Nat} {fault : GrammarFault}
    (found : faultFrom? operatorDue opened [] = some fault) : shown? fault = none := by
  cases operatorDue with
  | false =>
    cases found
    rfl
  | true =>
    by_cases inside : 0 < opened
    · simp only [faultFrom?, inside] at found
      cases found
      rfl
    · simp [faultFrom?, inside] at found

theorem faultFrom?_shown {operatorDue : Bool} {opened : Nat} {ts : List Token}
    {fault : GrammarFault} {text : String} (found : faultFrom? operatorDue opened ts = some fault)
    (shown : shown? fault = some text) : IsAbout fault text ts := by
  induction ts generalizing operatorDue opened with
  | nil =>
    rw [shown?_at_end found] at shown
    contradiction
  | cons t ts ih =>
    cases t with
    | endOfInput =>
      have silent := @shown?_at_end operatorDue opened fault found
      rw [silent] at shown
      contradiction
    | lexeme kind other =>
      have further (operatorDue : Bool) (opened : Nat)
          (found : faultFrom? operatorDue opened ts = some fault) :
          IsAbout fault text (.lexeme kind other :: ts) := (ih found).cons _
      cases operatorDue with
      | true =>
        cases kind with
        | plus | minus | times | divide => exact further false opened found
        | rightParen =>
          by_cases inside : 0 < opened <;> simp only [faultFrom?, inside, ↓reduceIte] at found
          · exact further true (opened - 1) found
          · cases found
            cases shown
            exact .first nofun
        | numeral | leftParen =>
          by_cases inside : 0 < opened <;> simp only [faultFrom?, inside, ↓reduceIte] at found
          · cases found
            contradiction
          · cases found
            cases shown
            exact .first nofun
      | false =>
        cases kind with
        | plus | minus => exact further false opened found
        | leftParen => exact further false (opened + 1) found
        | numeral =>
          cases readable : Number.read? other <;> simp only [faultFrom?, readable] at found
          · cases found
            cases shown
            exact ⟨.numeral, List.mem_cons_self, fun _ => ⟨rfl, readable⟩⟩
          · exact further true opened found
        | times | divide | rightParen =>
          cases found
          cases shown
          exact .first nofun

/-- A fault shows no text but that of a token. -/
theorem ofTokens_shown {limit : Nat} {ts : List Token} {fault : GrammarFault} {text : String}
    (failed : ofTokens limit ts = .error fault) (shown : shown? fault = some text) :
    IsAbout fault text ts := by
  rcases ofTokens_scans limit ts with refused | same
  · rw [failed] at refused
    cases refused
    contradiction
  · rw [failed] at same
    have found : fault? ts = some fault := same.symm
    match ts with
    | [] | .endOfInput :: _ =>
      cases found
      contradiction
    | .lexeme kind other :: ts => exact faultFrom?_shown found shown

/-- With a limit as large as the number of tokens, reading fails exactly with the fault that one pass
over the tokens finds first, and succeeds exactly if that finds none. -/
theorem ofTokens_eq_error_iff {limit : Nat} {ts : List Token} (room : ts.length ≤ limit) :
    (∀ fault, ofTokens limit ts = .error fault ↔ fault? ts = some fault) ∧
      ((∃ t, ofTokens limit ts = .ok t) ↔ fault? ts = none) := by
  have same : faultOf? (ofTokens limit ts) = fault? ts := by
    rcases ofTokens_scans limit ts with refused | same
    · exact absurd refused (ofTokens_not_tooDeep room limit)
    · exact same
  rw [← same]
  cases ofTokens limit ts with
  | error fault => simp [faultOf?]
  | ok t => simp [faultOf?]

/-- In `-(1*(2)3))` the numeral that should close a group comes before the parenthesis too many. -/
theorem ofTokens_eq_error_unclosed :
    let ts : List Token :=
      [.lexeme .minus "-", .lexeme .leftParen "(", .lexeme .numeral "1", .lexeme .times "*",
        .lexeme .leftParen "(", .lexeme .numeral "2", .lexeme .rightParen ")",
        .lexeme .numeral "3", .lexeme .rightParen ")", .lexeme .rightParen ")"]
    ts.length ≤ 10 ∧ ofTokens 10 ts = .error .unclosed ∧ ¬ ∃ t, ofTokens 10 ts = .ok t := by
  intro ts
  have room : ts.length ≤ 10 := by decide
  obtain ⟨fails, succeeds⟩ := ofTokens_eq_error_iff room
  have found : fault? ts = some .unclosed := by decide +kernel
  refine ⟨room, (fails _).mpr found, ?_⟩
  intro read
  have none := succeeds.mp read
  rw [found] at none
  contradiction

end Reckoner.Expr
