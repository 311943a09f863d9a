import Reckoner.Proofs.Expr.FirstFault
import Reckoner.Proofs.Expr.ReadBack

namespace Reckoner

open Token (Lexes)

namespace Number

/-- The number is not undefined and its sign bit is clear. It may be infinite. -/
structure IsUnsigned (x : Float) : Prop where
  defined : x.isNaN = false
  clear : x.toBits.toNat < 2 ^ (63 : Nat)

theorem toBits_infinity : (ofMagnitude infinityBits).toBits.toNat = infinityBits := by
  decide +kernel

theorem isUnsigned_ofMagnitude {bits : Nat} (bound : bits ≤ infinityBits) :
    IsUnsigned (ofMagnitude bits) := by
  have limit : infinityBits = 2047 * 2 ^ (52 : Nat) := rfl
  have exactly : (ofMagnitude bits).toBits.toNat = bits := by
    rcases Nat.lt_or_eq_of_le bound with below | rfl
    · exact toBits_ofMagnitude below
    · exact toBits_infinity
  constructor
  · rw [Float.isNaN_eq_decide_eq_nan]
    apply decide_eq_false
    intro undefined
    have above : infinityBits < Float.nan.toBits.toNat := by decide +kernel
    rw [undefined] at exactly
    omega
  · omega

/-- Zero is the only number that equals another one, and that has its sign bit set. -/
theorem IsUnsigned.beq_iff_eq {x y : Float} (left : IsUnsigned x) (right : IsUnsigned y) :
    (x == y) = true ↔ x = y := by
  have negative : 2 ^ (63 : Nat) ≤ (-0 : Float).toBits.toNat := by decide +kernel
  have defined {z : Float} (unsigned : IsUnsigned z) : z ≠ Float.nan := by
    have number := unsigned.defined
    rwa [Float.isNaN_eq_decide_eq_nan, decide_eq_false_iff_not] at number
  have clearLeft := left.clear
  have clearRight := right.clear
  rw [Float.beq_iff_ne_nan_and_eq]
  constructor
  · rintro ⟨_, _, same | ⟨_, rfl⟩ | ⟨rfl, _⟩⟩
    · exact same
    · omega
    · omega
  · intro same
    exact ⟨defined left, defined right, .inl same⟩

end Number

namespace Expr

theorem beq_iff_eq_of_unsigned {t u : Expr} (left : ∀ x ∈ t.numbers, Number.IsUnsigned x)
    (right : ∀ x ∈ u.numbers, Number.IsUnsigned x) : (t == u) = true ↔ t = u := by
  induction t generalizing u with
  | number x =>
    cases u with
    | number y =>
      have same := (left x (List.mem_singleton_self x)).beq_iff_eq
        (right y (List.mem_singleton_self y))
      rw [Expr.number.injEq]
      exact same
    | signed | binary | group => exact iff_of_false Bool.false_ne_true Expr.noConfusion
  | signed sign operand ih =>
    cases u with
    | signed sign' operand' =>
      have inside : (operand == operand') = true ↔ operand = operand' := ih left right
      have parts : (signed sign operand == signed sign' operand') =
          (sign == sign' && operand == operand') := rfl
      rw [parts, Bool.and_eq_true, beq_iff_eq, inside, Expr.signed.injEq]
    | number | binary | group => exact iff_of_false Bool.false_ne_true Expr.noConfusion
  | binary l operator r ihLeft ihRight =>
    cases u with
    | binary l' operator' r' =>
      obtain ⟨leftFirst, leftSecond⟩ := List.forall_mem_append.mp left
      obtain ⟨rightFirst, rightSecond⟩ := List.forall_mem_append.mp right
      have parts : (binary l operator r == binary l' operator' r') =
          (l == l' && (operator == operator' && r == r')) := rfl
      rw [parts, Bool.and_eq_true, Bool.and_eq_true, ihLeft leftFirst rightFirst,
        ihRight leftSecond rightSecond, beq_iff_eq, Expr.binary.injEq]
    | number | signed | group => exact iff_of_false Bool.false_ne_true Expr.noConfusion
  | group inner ih =>
    cases u with
    | group inner' =>
      have inside : (inner == inner') = true ↔ inner = inner' := ih left right
      rw [Expr.group.injEq, ← inside]
      rfl
    | number | signed | binary => exact iff_of_false Bool.false_ne_true Expr.noConfusion

def FromText (t : Expr) : Prop :=
  ∃ limit text tokens, Token.scan text = .ok tokens ∧ ofTokens limit tokens = .ok t

theorem FromText.isUnsigned {t : Expr} (read : FromText t) :
    ∀ x ∈ t.numbers, Number.IsUnsigned x := by
  obtain ⟨limit, text, tokens, scanned, read⟩ := read
  obtain ⟨ts, rfl, lexes⟩ := Token.exists_lexes scanned
  obtain ⟨derived, _⟩ := (ofTokens_of_lexes lexes).mp read
  intro x member
  obtain ⟨bits, bound, rfl⟩ := exists_bits_of_lexes lexes derived x member
  exact Number.isUnsigned_ofMagnitude bound

theorem ofTokens_ne_badNumeral {limit : Nat} {text : String} {tokens : List Token}
    (scanned : Token.scan text = .ok tokens) (numeral : String) :
    ofTokens limit tokens ≠ .error (.badNumeral numeral) := by
  intro failed
  obtain ⟨kind, member, unreadable⟩ := ofTokens_shown failed rfl
  obtain ⟨rfl, none⟩ := unreadable rfl
  obtain ⟨ts, rfl, lexes⟩ := Token.exists_lexes scanned
  have held : .lexeme .numeral numeral ∈ ts := by simpa using member
  obtain ⟨bits, _, read⟩ := Number.read?_of_isNumeral (lexes.wellFormed _ held).isNumeral_toList
  rw [none] at read
  contradiction

/-- Every numeral that is scanned can be read, and trees that were read from texts have only numbers
that are not undefined and have a clear sign bit. So equality of such trees is reflexive and keeps
values, being the same as bit for bit. Neither is so for all trees. -/
theorem parsed_beq_iff_eq :
    (∀ limit text tokens, Token.scan text = .ok tokens →
      ∀ numeral, ofTokens limit tokens ≠ .error (.badNumeral numeral)) ∧
      (∀ t, FromText t → ∀ x ∈ t.numbers, x.isNaN = false ∧ x.toBits.toNat < 2 ^ (63 : Nat)) ∧
      (∀ t u, FromText t → FromText u →
        ((t == u) = true ↔ t = u) ∧ (t == t) = true ∧ ((t == u) = true → t.value = u.value)) ∧
      (let t : Expr := .binary (.number 1) .divide (.number 0)
        let u : Expr := .binary (.number 1) .divide (.number (-0))
        (t == u) = true ∧ t.value ≠ u.value) ∧
      (Expr.number (0 / 0) == .number (0 / 0)) = false := by
  refine ⟨?_, ?_, ?_, ?_, ?_⟩
  · intro limit text tokens scanned numeral
    exact ofTokens_ne_badNumeral scanned numeral
  · intro t read x member
    have unsigned := read.isUnsigned x member
    exact ⟨unsigned.defined, unsigned.clear⟩
  · intro t u first second
    have same := beq_iff_eq_of_unsigned first.isUnsigned second.isUnsigned
    refine ⟨same, (beq_iff_eq_of_unsigned first.isUnsigned first.isUnsigned).mpr rfl, ?_⟩
    intro equal
    rw [same.mp equal]
  · decide +kernel
  · decide +kernel

/-- From a text, a zero with its sign bit set comes only as a tree that zero itself does not equal. -/
theorem parsed_beq_iff_eq_zero :
    let tokens : List Token :=
      [.lexeme .numeral "1", .lexeme .divide "/", .lexeme .numeral "0.00", .endOfInput]
    let t : Expr := .binary (.number 1) .divide (.number 0)
    let u : Expr := .binary (.number 1) .divide (.signed .minus (.number 0))
    Token.scan "1/0.00" = .ok tokens ∧
      (∀ numeral, ofTokens 2 tokens ≠ .error (.badNumeral numeral)) ∧
      FromText t ∧ FromText u ∧
      (∀ x ∈ t.numbers, x.isNaN = false ∧ x.toBits.toNat < 2 ^ (63 : Nat)) ∧
      (t == t) = true ∧ t.value ≠ u.value ∧ ¬ (t == u) = true := by
  intro tokens t u
  obtain ⟨readable, unsigned, equality, _⟩ := parsed_beq_iff_eq
  have scanned : Token.scan "1/0.00" = .ok tokens := by decide +kernel
  have first : FromText t := ⟨2, "1/0.00", tokens, scanned, by decide +kernel⟩
  have second : FromText u := by
    refine ⟨3, "1/-0", [.lexeme .numeral "1", .lexeme .divide "/", .lexeme .minus "-",
      .lexeme .numeral "0", .endOfInput], ?_, ?_⟩ <;> decide +kernel
  have apart : t.value ≠ u.value := by decide +kernel
  obtain ⟨_, reflexive, keeps⟩ := equality t u first second
  exact ⟨scanned, readable _ _ _ scanned, first, second, unsigned t first, reflexive, apart,
    fun equal => apart (keeps equal)⟩

end Expr

end Reckoner
