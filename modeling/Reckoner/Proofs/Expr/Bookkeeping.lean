import Reckoner.Expr.Cursor
import Reckoner.Proofs.Expr.DepthLimit

namespace Reckoner.Expr

/-- Every call, with the calls in progress when it is made, the latest first, and every sum. -/
inductive Trace.All (calls : List Call → Call → Prop) (sums : Nat → Prop) :
    List Call → Trace → Prop where
  | nil {below : List Call} : All calls sums below .nil
  | sum {below : List Call} {value : Nat} {later : Trace} :
      sums value → All calls sums below later → All calls sums below (.sum value later)
  | call {below : List Call} {made : Call} {inner later : Trace} :
      calls below made → All calls sums (made :: below) inner → All calls sums below later →
      All calls sums below (.call made inner later)

namespace Trace.All

variable {calls : List Call → Call → Prop} {sums sums' : Nat → Prop} {below : List Call}

theorem append {earlier later : Trace} (first : All calls sums below earlier)
    (second : All calls sums below later) : All calls sums below (earlier.append later) := by
  induction first with
  | nil => exact second
  | sum value _ ih => exact .sum value (ih second)
  | call made inner _ _ ih => exact .call made inner (ih second)

theorem imp (weaker : ∀ n, sums n → sums' n) {trace : Trace} (all : All calls sums below trace) :
    All calls sums' below trace := by
  induction all with
  | nil => exact .nil
  | sum value _ ih => exact .sum (weaker _ value) ih
  | call made _ _ inner ih => exact .call made inner ih

end Trace.All

def Call.encloses (call : Call) : Bool :=
  call.part = .enclosed

def Call.opens (call : Call) : Bool :=
  call.part = .operand ∧ call.entry.token.opens

/-- The depth of the reading is that of its tree, at least one, within the limit, and no more than
the number of tokens taken. -/
def Reading.Measured (limit : Nat) (ts : List Token) (r : Reading) : Prop :=
  ∃ taken, ts = taken ++ r.rest ∧ r.depth = r.tree.depth ∧ 1 ≤ r.depth ∧ r.depth ≤ limit ∧
    r.depth ≤ taken.length

/-- A call with exact books, made while others are in progress. The sign or parenthesis for which a
call goes one level deeper has been read, and is counted from then on. -/
structure Call.Exact (limit : Nat) (below : List Call) (call : Call) : Prop where
  levels : call.entry.nesting = below.countP Call.encloses
  opened : below.countP Call.opens = call.entry.nesting + if call.part = .enclosed then 1 else 0
  bounded : call.entry.nesting ≤ limit
  restored : call.exit.nesting = call.entry.nesting
  subtree : ∀ s, call.result = .ok s →
    Reading.Measured limit call.entry.rest ⟨s.tree, s.depth, call.exit.rest⟩

/-- What is kept of a reading is its one call for a sum, made for all tokens. The reading ends where
the call does, and has the result of the call, unless tokens are left over. -/
def Outcome.IsSumOf (ts : List Token) (o : Outcome Expr) : Prop :=
  ∃ call inner, o.trace = .call call inner .nil ∧ call.part = .sum ∧ call.entry = ⟨ts, 0⟩ ∧
    call.exit = o.cursor ∧ o.result = call.result.bind fun s => (Walk.ended s o.cursor).result

theorem Reading.Measured.room {limit : Nat} {ts : List Token} {r : Reading}
    (measured : r.Measured limit ts) : r.depth + r.rest.length ≤ ts.length := by
  obtain ⟨taken, split, _, _, _, paid⟩ := measured
  have tokens := congrArg List.length split
  rw [List.length_append] at tokens
  omega

namespace Reader

def Measures (limit : Nat) (reader : Reader) : Prop :=
  ∀ ts r, reader.read ts = .ok r → r.Measured limit ts

theorem Derives.measures {limit : Nat} {G : List Token → Expr → Prop} {reader : Reader}
    (derives : reader.Derives limit G)
    (bound : ∀ {ts : List Token} {t : Expr}, G ts t → t.depth ≤ ts.length) :
    reader.Measures limit := by
  intro ts r read
  obtain ⟨taken, split, derived, exactly, within⟩ := derives ts r read
  have positive := depth_pos r.tree
  have paid := bound derived
  exact ⟨taken, split, exactly, by omega, within, by omega⟩

end Reader

/-- Under the calls in progress as many levels are open, each of them for a sign or parenthesis
that was read, and as many more were read as are awaited. -/
structure Levels (nesting awaited : Nat) (below : List Call) : Prop where
  enclosed : below.countP Call.encloses = nesting
  opened : below.countP Call.opens = nesting + awaited

namespace Levels

variable {nesting awaited : Nat} {below : List Call} {call : Call}

theorem none : Levels 0 0 [] :=
  ⟨rfl, rfl⟩

theorem plain (levels : Levels nesting awaited below) (operand : call.part ≠ .operand)
    (enclosed : call.part ≠ .enclosed) : Levels nesting awaited (call :: below) where
  enclosed := by simp [Call.encloses, enclosed, levels.enclosed]
  opened := by simp [Call.opens, operand, levels.opened]

/-- A sign or a parenthesis is read. -/
theorem opens (levels : Levels nesting 0 below) (operand : call.part = .operand)
    (token : call.entry.token.opens) : Levels nesting 1 (call :: below) where
  enclosed := by simp [Call.encloses, operand, levels.enclosed]
  opened := by simp [Call.opens, operand, token, levels.opened]

/-- The level that was awaited is opened. -/
theorem encloses (levels : Levels nesting 1 below) (enclosed : call.part = .enclosed) :
    Levels (nesting + 1) 0 (call :: below) where
  enclosed := by simp [Call.encloses, enclosed, levels.enclosed]
  opened := by simp [Call.opens, enclosed, levels.opened]

end Levels

/-- The outcome has the tree or the fault of the reading, the stated levels are open again, and the
books are exact. After a fault the tokens that are left do not matter. -/
inductive Follows (limit bound nesting : Nat) (below : List Call) :
    Except GrammarFault Reading → Outcome Subtree → Prop where
  | ok {r : Reading} {trace : Trace} : trace.All (Call.Exact limit) (· ≤ bound) below →
      Follows limit bound nesting below (.ok r) ⟨.ok ⟨r.tree, r.depth⟩, ⟨r.rest, nesting⟩, trace⟩
  | error {fault : GrammarFault} {rest : List Token} {trace : Trace} :
      trace.All (Call.Exact limit) (· ≤ bound) below →
      Follows limit bound nesting below (.error fault) ⟨.error fault, ⟨rest, nesting⟩, trace⟩

namespace Follows

variable {stored : Nat → Nat} {limit bound nesting : Nat} {below : List Call}
  {x : Except GrammarFault Reading} {rest : List Token}

theorem after {earlier : Trace} {o : Outcome Subtree}
    (books : earlier.All (Call.Exact limit) (· ≤ bound) below)
    (follows : Follows limit bound nesting below x o) :
    Follows limit bound nesting below x (o.after earlier) := by
  cases follows with
  | ok later => exact .ok (books.append later)
  | error later => exact .error (books.append later)

theorem fail (fault : GrammarFault) :
    Follows limit bound nesting below (.error fault) (Walk.fail fault ⟨rest, nesting⟩) :=
  .error .nil

theorem bind {walk : Walk Subtree} {further : Subtree → Walk Subtree} {c : Cursor}
    {g : Reading → Except GrammarFault Reading}
    (first : Follows limit bound nesting below x (walk c))
    (second : ∀ r, x = .ok r →
      Follows limit bound nesting below (g r) (further ⟨r.tree, r.depth⟩ ⟨r.rest, nesting⟩)) :
    Follows limit bound nesting below (x.bind g) ((walk >>= further) c) := by
  generalize walked : walk c = o at first
  cases first with
  | ok earlier =>
    rw [Walk.bind_of_ok walked]
    exact (second _ rfl).after earlier
  | error earlier =>
    rw [Walk.bind_of_error walked]
    exact .error earlier

theorem successor {n : Nat} {further : Nat → Walk Subtree} {c : Cursor} (bounded : n + 1 ≤ bound)
    (fits : stored (n + 1) = n + 1)
    (follows : Follows limit bound nesting below x (further (n + 1) c)) :
    Follows limit bound nesting below x ((Walk.successor stored n >>= further) c) := by
  simp only [Bind.bind, Walk.successor, fits]
  exact follows.after (.sum bounded .nil)

theorem within (tree : Expr) (depth : Nat) :
    Follows limit bound nesting below (Reading.within limit ⟨tree, depth, rest⟩)
      (Walk.within limit tree depth ⟨rest, nesting⟩) := by
  by_cases deep : limit < depth
  · simp only [Reading.within, Walk.within, if_pos deep]
    exact .fail _
  · simp only [Reading.within, Walk.within, if_neg deep]
    exact .ok .nil

theorem recorded {part : Part} {walk : Walk Subtree} {reader : Reader} {ts : List Token}
    (measures : reader.Measures limit) (bounded : nesting ≤ limit)
    (levels : Levels nesting (if part = .enclosed then 1 else 0) below)
    (inside : ∀ call : Call, call.part = part → call.entry = ⟨ts, nesting⟩ →
      Follows limit bound nesting (call :: below) (reader.read ts) (walk ⟨ts, nesting⟩)) :
    Follows limit bound nesting below (reader.read ts) (Walk.recorded part walk ⟨ts, nesting⟩) := by
  have inside := inside ⟨part, ⟨ts, nesting⟩, (walk ⟨ts, nesting⟩).result,
    (walk ⟨ts, nesting⟩).cursor⟩ rfl rfl
  unfold Walk.recorded
  generalize walk ⟨ts, nesting⟩ = o at inside
  generalize read : reader.read ts = x at inside
  cases inside with
  | ok during =>
    refine .ok (.call ⟨levels.enclosed.symm, levels.opened, bounded, rfl, ?_⟩ during .nil)
    intro s same
    cases same
    exact measures ts _ read
  | error during =>
    refine .error (.call ⟨levels.enclosed.symm, levels.opened, bounded, rfl, ?_⟩ during .nil)
    intro s same
    contradiction

end Follows

namespace Walk

def Mirrors (limit bound tokens nesting : Nat) (below : List Call) (walk : Walk Subtree)
    (reader : Reader) : Prop :=
  ∀ ts : List Token, ts.length ≤ tokens → nesting + ts.length ≤ bound →
    Follows limit bound nesting below (reader.read ts) (walk ⟨ts, nesting⟩)

def Tracks (limit bound tokens : Nat) (walk : Walk Subtree) (reader : Nat → Reader) : Prop :=
  ∀ nesting below, nesting ≤ limit → Levels nesting 0 below →
    walk.Mirrors limit bound tokens nesting below (reader nesting)

def operandAt (limit nesting : Nat) : Reader :=
  Reader.operand limit (limit + 1 - nesting)

theorem operandAt_eq {limit nesting : Nat} (bounded : nesting ≤ limit) :
    operandAt limit nesting = Reader.enclosing limit (operandAt limit (nesting + 1)) := by
  rw [operandAt, operandAt, Nat.succ_sub bounded, Reader.operand_succ, Nat.succ_sub_succ]

theorem operandAt_full {limit nesting : Nat} (full : limit ≤ nesting) :
    operandAt limit (nesting + 1) = Reader.refuse limit := by
  rw [operandAt, Nat.succ_sub_succ, Nat.sub_eq_zero_of_le full]
  rfl

theorem operandAt_derives (limit nesting : Nat) :
    (operandAt limit nesting).Derives limit IsOperand :=
  Reader.operand_derives _ _

theorem operandAt_measures (limit nesting : Nat) : (operandAt limit nesting).Measures limit :=
  (operandAt_derives limit nesting).measures IsOperand.depth_le

section

variable {stored : Nat → Nat} {limit bound tokens nesting : Nat} {below : List Call}
  (fits : ∀ n ≤ bound, stored n = n)

include fits

section Chain

variable {operator? : Token → Option Operator} {walk : Walk Subtree} {reader : Reader}

-- Nesting and the depth so far are paid for by tokens taken before: their sum with the tokens that
-- are left never grows.
theorem fold_follows (ends : operator? .endOfInput = none)
    (mirrors : walk.Mirrors limit bound tokens nesting below reader)
    (measures : reader.Measures limit) (rounds : Nat) (first : Subtree) (ts : List Token)
    (enough : ts.length ≤ rounds) (few : ts.length ≤ tokens)
    (room : nesting + first.depth + ts.length ≤ bound) :
    Follows limit bound nesting below
      (Reader.continueChain limit operator? reader first.tree first.depth ts)
      (fold stored limit operator? walk rounds first ⟨ts, nesting⟩) := by
  induction rounds generalizing first ts with
  | zero =>
    obtain rfl := List.eq_nil_of_length_eq_zero (Nat.le_zero.mp enough)
    rw [Reader.continueChain_nil]
    exact .ok .nil
  | succ rounds ih =>
    cases ts with
    | nil =>
      rw [Reader.continueChain_nil]
      simp only [fold, bind_peek, Cursor.token, List.headD_nil, ends]
      exact .ok .nil
    | cons t ts =>
      simp only [fold, bind_peek, Cursor.token, List.headD_cons]
      cases continues : operator? t with
      | none =>
        rw [Reader.continueChain_stop continues]
        exact .ok .nil
      | some operator =>
        rw [List.length_cons] at enough few room
        rw [Reader.continueChain_cons continues]
        refine (mirrors ts (by omega) (by omega)).bind ?_
        intro second read
        have paid := (measures ts second read).room
        have computed : max first.depth second.depth + 1 ≤ bound := by omega
        refine .successor computed (fits _ computed) ?_
        by_cases deep : limit < max first.depth second.depth + 1
        · rw [if_pos deep, Walk.within, if_pos deep]
          exact .error .nil
        · rw [if_neg deep, Walk.within, if_neg deep]
          have left : nesting + (max first.depth second.depth + 1) + second.rest.length ≤ bound := by
            omega
          exact ih ⟨_, _⟩ second.rest (by omega) (by omega) left

theorem Mirrors.chain (ends : operator? .endOfInput = none)
    (mirrors : walk.Mirrors limit bound tokens nesting below reader)
    (measures : reader.Measures limit) :
    (Walk.chain stored limit operator? walk).Mirrors limit bound tokens nesting below
      (Reader.chain limit operator? reader) := by
  intro ts few room
  refine (mirrors ts few room).bind ?_
  intro r read
  have paid := (measures ts r read).room
  have left : nesting + r.depth + r.rest.length ≤ bound := by omega
  exact fold_follows fits ends mirrors measures _ ⟨_, _⟩ r.rest (Nat.le_refl _) (by omega) left

end Chain

section Parts

variable {walk : Walk Subtree} {reader : Nat → Reader}

theorem Tracks.chain (part : Part) (operand : part ≠ .operand) (enclosed : part ≠ .enclosed)
    {operator? : Token → Option Operator} (ends : operator? .endOfInput = none)
    (tracks : walk.Tracks limit bound tokens reader)
    (measures : ∀ nesting, (reader nesting).Measures limit)
    (chained : ∀ nesting, (Reader.chain limit operator? (reader nesting)).Measures limit) :
    (recorded part (Walk.chain stored limit operator? walk)).Tracks limit bound tokens
      fun nesting => Reader.chain limit operator? (reader nesting) := by
  intro nesting below bounded levels ts few room
  refine .recorded (chained nesting) bounded ?_ ?_
  · rw [if_neg enclosed]
    exact levels
  · rintro call rfl _
    have mirrors := tracks nesting _ bounded (levels.plain operand enclosed)
    exact mirrors.chain fits ends (measures nesting) ts few room

theorem Tracks.product (tracks : walk.Tracks limit bound tokens reader)
    (derives : ∀ nesting, (reader nesting).Derives limit IsOperand) :
    (Walk.product stored limit walk).Tracks limit bound tokens
      fun nesting => Reader.product limit (reader nesting) :=
  tracks.chain fits .product nofun nofun rfl
    (fun nesting => (derives nesting).measures IsOperand.depth_le)
    fun nesting => (derives nesting).product.measures IsProduct.depth_le

theorem Tracks.sum (tracks : walk.Tracks limit bound tokens reader)
    (derives : ∀ nesting, (reader nesting).Derives limit IsOperand) :
    (Walk.sum stored limit walk).Tracks limit bound tokens
      fun nesting => Reader.sum limit (reader nesting) :=
  (tracks.product fits derives).chain fits .sum nofun nofun rfl
    (fun nesting => (derives nesting).product.measures IsProduct.depth_le)
    fun nesting => (derives nesting).sum.measures IsSum.depth_le

/-- A sign or a parenthesis has been read, and the walk goes one level deeper for it. -/
theorem Tracks.nested (tracks : walk.Tracks limit bound tokens reader) {ts : List Token}
    (measures : (reader (nesting + 1)).Measures limit)
    (refused : limit ≤ nesting → (reader (nesting + 1)).read ts = .error (.tooDeep limit))
    (bounded : nesting ≤ limit) (levels : Levels nesting 1 below)
    (few : ts.length ≤ tokens) (room : nesting + 1 + ts.length ≤ bound) :
    Follows limit bound nesting below ((reader (nesting + 1)).read ts)
      (Walk.nested stored limit walk ⟨ts, nesting⟩) := by
  refine .recorded measures bounded levels ?_
  intro call part _
  have computed : nesting + 1 ≤ bound := by omega
  by_cases full : limit ≤ nesting
  · -- the limit is reached before anything is read, as the reader that has no levels left does
    rw [if_pos full, refused full]
    exact .error .nil
  · simp only [if_neg full, fits _ computed]
    have inside := tracks _ _ (Nat.lt_of_not_le full) (levels.encloses part) ts few room
    generalize walk ⟨ts, nesting + 1⟩ = o at inside
    generalize (reader (nesting + 1)).read ts = x at inside
    cases inside with
    | ok during => exact .ok (.sum computed during)
    | error during => exact .error (.sum computed during)

end Parts

section Operand

variable {inner : Walk Subtree} {ts : List Token}

theorem signed_follows (tracks : inner.Tracks limit bound tokens (operandAt limit))
    (bounded : nesting ≤ limit) (levels : Levels nesting 1 below) (few : ts.length ≤ tokens)
    (room : nesting + 1 + ts.length ≤ bound) (sign : Sign) :
    Follows limit bound nesting below
      (((operandAt limit (nesting + 1)).read ts).bind (Reading.signed limit sign))
      (signed stored limit sign inner ⟨ts, nesting⟩) := by
  have measures := operandAt_measures limit (nesting + 1)
  refine (tracks.nested fits measures ?_ bounded levels few room).bind ?_
  · intro full
    rw [operandAt_full full]
    rfl
  · intro r read
    have paid := (measures ts r read).room
    have computed : r.depth + 1 ≤ bound := by omega
    exact .successor computed (fits _ computed) (.within _ _)

theorem grouped_follows (tracks : inner.Tracks limit bound tokens (operandAt limit))
    (bounded : nesting ≤ limit) (levels : Levels nesting 1 below) (few : ts.length ≤ tokens)
    (room : nesting + 1 + ts.length ≤ bound) :
    Follows limit bound nesting below
      (((Reader.sum limit (operandAt limit (nesting + 1))).read ts).bind (Reading.grouped limit))
      (grouped stored limit inner ⟨ts, nesting⟩) := by
  have measures := (operandAt_derives limit (nesting + 1)).sum.measures IsSum.depth_le
  have sums := tracks.sum fits (operandAt_derives limit)
  refine (sums.nested fits measures ?_ bounded levels few room).bind ?_
  · intro full
    rw [operandAt_full full]
    rfl
  · intro ⟨tree, depth, rest⟩ read
    have paid := (measures ts _ read).room
    have computed : depth + 1 ≤ bound := by
      simp only at paid
      omega
    cases rest with
    | nil => exact .fail _
    | cons t rest =>
      cases t with
      | endOfInput => exact .fail _
      | lexeme kind text =>
        cases kind with
        | rightParen => exact .successor computed (fits _ computed) (.within _ _)
        | numeral | plus | minus | times | divide | leftParen => exact .fail _

theorem enclosing_follows (tracks : inner.Tracks limit bound tokens (operandAt limit))
    (bounded : nesting ≤ limit) (levels : Levels nesting 0 below) {call : Call}
    (part : call.part = .operand) (entry : call.entry = ⟨ts, nesting⟩)
    (few : ts.length ≤ tokens + 1) (room : nesting + ts.length ≤ bound) :
    Follows limit bound nesting (call :: below)
      ((Reader.enclosing limit (operandAt limit (nesting + 1))).read ts)
      (enclosing stored limit inner ⟨ts, nesting⟩) := by
  cases ts with
  | nil => exact .fail _
  | cons t ts =>
    rw [List.length_cons] at few room
    cases t with
    | endOfInput => exact .fail _
    | lexeme kind text =>
      cases kind with
      | numeral =>
        simp only [Reader.enclosing, enclosing, bind_advance, Cursor.token, List.headD_cons]
        cases Number.read? text with
        | none => exact .fail _
        | some x => exact .within _ _
      | plus | minus =>
        exact signed_follows fits tracks bounded (levels.opens part (by rw [entry]; rfl))
          (by omega) (by omega) _
      | leftParen =>
        exact grouped_follows fits tracks bounded (levels.opens part (by rw [entry]; rfl))
          (by omega) (by omega)
      | times | divide | rightParen => exact .fail _

theorem operand_tracks (limit tokens : Nat) :
    (operand stored limit tokens).Tracks limit bound tokens (operandAt limit) := by
  induction tokens with
  | zero =>
    intro nesting below bounded levels ts few room
    refine .recorded (operandAt_measures limit nesting) bounded levels ?_
    intro call part entry
    obtain rfl := List.eq_nil_of_length_eq_zero (Nat.le_zero.mp few)
    rw [operandAt_eq bounded]
    exact .fail _
  | succ tokens ih =>
    intro nesting below bounded levels ts few room
    refine .recorded (operandAt_measures limit nesting) bounded levels ?_
    intro call part entry
    rw [operandAt_eq bounded]
    exact enclosing_follows fits ih bounded levels part entry few room

end Operand

end

end Walk

theorem result_ended (r : Reading) (nesting : Nat) :
    (Walk.ended ⟨r.tree, r.depth⟩ ⟨r.rest, nesting⟩).result = match r.rest with
      | [] => .ok r.tree
      | .endOfInput :: _ => .ok r.tree
      | .lexeme _ text :: _ => .error (.trailing text) := by
  cases r.rest with
  | nil => rfl
  | cons t ts => cases t <;> rfl

theorem ended_quiet (subtree : Subtree) (c : Cursor) :
    (Walk.ended subtree c).cursor = c ∧ (Walk.ended subtree c).trace = .nil := by
  unfold Walk.ended
  rw [Walk.bind_peek]
  cases c.token <;> exact ⟨rfl, rfl⟩

theorem traced_lexeme (stored : Nat → Nat) (limit : Nat) (kind : Kind) (text : String)
    (rest : List Token) :
    traced stored limit (.lexeme kind text :: rest) =
      (Walk.sum stored limit (Walk.operand stored limit (rest.length + 1)) >>= Walk.ended)
        ⟨.lexeme kind text :: rest, 0⟩ :=
  rfl

theorem traced_isSumOf (stored : Nat → Nat) (limit : Nat) {ts : List Token}
    (nonempty : ts.headD .endOfInput ≠ .endOfInput) : (traced stored limit ts).IsSumOf ts := by
  obtain ⟨kind, text, rest, rfl⟩ : ∃ kind text rest, ts = .lexeme kind text :: rest := by
    cases ts with
    | nil => exact absurd rfl nonempty
    | cons t rest =>
      cases t with
      | endOfInput => exact absurd rfl nonempty
      | lexeme kind text => exact ⟨kind, text, rest, rfl⟩
  obtain ⟨result, cursor, during, walked⟩ : ∃ result cursor during,
      Walk.sum stored limit (Walk.operand stored limit (rest.length + 1))
          ⟨.lexeme kind text :: rest, 0⟩ =
        ⟨result, cursor,
          .call ⟨.sum, ⟨.lexeme kind text :: rest, 0⟩, result, cursor⟩ during .nil⟩ :=
    ⟨_, _, _, rfl⟩
  rw [traced_lexeme]
  cases result with
  | error fault =>
    rw [Walk.bind_of_error walked]
    exact ⟨_, during, rfl, rfl, rfl, rfl, rfl⟩
  | ok subtree =>
    obtain ⟨stays, quiet⟩ := ended_quiet subtree cursor
    rw [Walk.bind_of_ok walked]
    refine ⟨⟨.sum, ⟨_, 0⟩, .ok subtree, cursor⟩, during, ?_, rfl, rfl, stays.symm, ?_⟩
    · rw [Outcome.after, quiet]
      rfl
    · exact congrArg (fun c => (Walk.ended subtree c).result) stays.symm

/-- Reading step by step gives what `ofTokens` gives, with exact books, if the counters hold the
sums up to the number of tokens; no sum is larger. -/
theorem traced_of_fits {stored : Nat → Nat} (limit : Nat) {ts : List Token}
    (fits : ∀ n ≤ ts.length, stored n = n) :
    (traced stored limit ts).result = ofTokens limit ts ∧
      (traced stored limit ts).trace.All (Call.Exact limit) (· ≤ ts.length) [] := by
  have sums := (Walk.operand_tracks fits limit ts.length).sum fits (Walk.operandAt_derives limit)
  have follows : Follows limit ts.length 0 []
      ((Reader.sum limit (Reader.operand limit (limit + 1))).read ts)
      (Walk.sum stored limit (Walk.operand stored limit ts.length) ⟨ts, 0⟩) :=
    sums 0 [] (Nat.zero_le _) .none ts (Nat.le_refl _) (by omega)
  cases ts with
  | nil => exact ⟨rfl, .nil⟩
  | cons t ts =>
    cases t with
    | endOfInput => exact ⟨rfl, .nil⟩
    | lexeme kind text =>
      rw [traced_lexeme, ofTokens]
      rw [List.length_cons] at follows
      generalize walked : Walk.sum stored limit _ _ = o at follows
      generalize Reader.read _ _ = x at follows
      cases follows with
      | error during =>
        rw [Walk.bind_of_error walked]
        exact ⟨rfl, during⟩
      | @ok r _ during =>
        rw [Walk.bind_of_ok walked]
        refine ⟨result_ended r 0, ?_⟩
        rw [Outcome.after, (ended_quiet _ _).2]
        exact during.append .nil

/-- Reading keeps exact books on every call, and what it keeps is the call for the whole with all
that happens during it. With counters that hold every number this is so for all tokens. Counters of
64 bits do no worse, as long as there are fewer tokens than such a counter has values above zero:
whatever the limit, no sum is too large for a word. -/
theorem traced_exact (limit : Nat) (ts : List Token) :
    ((traced id limit ts).result = ofTokens limit ts ∧
        (traced id limit ts).trace.All (Call.Exact limit) (· ≤ ts.length) [] ∧
        (ts.headD .endOfInput ≠ .endOfInput → (traced id limit ts).IsSumOf ts)) ∧
      (ts.length < UInt64.size - 1 →
        (traced wrapped limit ts).result = ofTokens limit ts ∧
          (traced wrapped limit ts).trace.All (Call.Exact limit) (· < UInt64.size) [] ∧
          (ts.headD .endOfInput ≠ .endOfInput → (traced wrapped limit ts).IsSumOf ts)) := by
  have exactly := @traced_of_fits id limit ts fun _ _ => rfl
  refine ⟨⟨exactly.1, exactly.2, traced_isSumOf id limit⟩, ?_⟩
  intro short
  have below {n : Nat} (few : n ≤ ts.length) : n < UInt64.size := by omega
  obtain ⟨result, books⟩ := traced_of_fits limit fun n few => Nat.mod_eq_of_lt (below few)
  exact ⟨result, books.imp fun n few => below few, traced_isSumOf wrapped limit⟩

/-- A negated group under the largest limit that a word holds. -/
theorem traced_exact_group :
    let ts : List Token :=
      [.lexeme .minus "-", .lexeme .leftParen "(", .lexeme .numeral "1", .lexeme .rightParen ")"]
    let limit := UInt64.size - 1
    (ts.length < UInt64.size - 1 ∧ ts.headD .endOfInput ≠ .endOfInput) ∧
      (traced wrapped limit ts).result = .ok (.signed .minus (.group (.number 1))) ∧
      (traced wrapped limit ts).trace.All (Call.Exact limit) (· < UInt64.size) [] ∧
      (traced wrapped limit ts).IsSumOf ts := by
  intro ts limit
  have short : ts.length < UInt64.size - 1 := by decide
  have nonempty : ts.headD .endOfInput ≠ .endOfInput := by decide
  obtain ⟨result, books, kept⟩ := (traced_exact limit ts).2 short
  have read : ofTokens limit ts = .ok (.signed .minus (.group (.number 1))) := by decide +kernel
  exact ⟨⟨short, nonempty⟩, result.trans read, books, kept nonempty⟩

/-- A sign with nothing behind it: the level that is opened for it is closed when its operand fails. -/
example :
    (traced id 1 [.lexeme .minus "-"]).trace =
      let entry : Cursor := ⟨[.lexeme .minus "-"], 0⟩
      let failed part entry : Call :=
        ⟨part, entry, .error .unexpectedEnd, ⟨[], entry.nesting⟩⟩
      .call (failed .sum entry)
        (.call (failed .product entry)
          (.call (failed .operand entry)
            (.call (failed .enclosed ⟨[], 0⟩)
              (.sum 1 (.call (failed .operand ⟨[], 1⟩) .nil .nil))
              .nil)
            .nil)
          .nil)
        .nil :=
  rfl

end Reckoner.Expr
