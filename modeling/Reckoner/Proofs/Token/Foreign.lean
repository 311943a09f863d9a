import Mathlib.Data.List.DropRight
import Mathlib.Logic.Relation
import Reckoner.Proofs.Token.Longest

namespace Reckoner.Token

/-- The character may stand between the two parts of a text. A point has a digit on both sides, and
the digits before it are not behind a point themselves. -/
def Fits (front : List Char) (c : Char) (back : List Char) : Prop :=
  c.isDigit = true ∨ c ∈ symbols ∨ Text.isBlank c = true ∨
    c = '.' ∧ (∃ d ∈ front.getLast?, d.isDigit = true) ∧ DigitFirst back ∧
      (front.rdropWhile Char.isDigit).getLast? ≠ some '.'

def AllFit (front piece back : List Char) : Prop :=
  ∀ u c v, piece = u ++ c :: v → Fits (front ++ u) c (v ++ back)

theorem AllFit.append {front p q back : List Char} (first : AllFit front p (q ++ back))
    (second : AllFit (front ++ p) q back) : AllFit front (p ++ q) back := by
  intro u c v split
  rcases List.append_eq_append_iff.mp split with ⟨w, inside, rest⟩ | ⟨w, inside, rest⟩
  · have fits := second w c v rest
    rwa [List.append_assoc, ← inside] at fits
  · cases w with
    | nil =>
      rw [List.append_nil] at inside
      have fits := second [] c v rest.symm
      rwa [List.append_nil, inside] at fits
    | cons d w =>
      cases rest
      have fits := first u c w inside
      rwa [← List.append_assoc] at fits

theorem allFit_nil (front back : List Char) : AllFit front [] back := by
  intro u c v split
  simp at split

theorem allFit_singleton {front back : List Char} {c : Char} (fits : Fits front c back) :
    AllFit front [c] back := by
  intro u d v split
  cases u with
  | nil =>
    cases split
    rwa [List.append_nil]
  | cons e u => simp at split

theorem allFit_digits {front piece back : List Char} (digits : ∀ c ∈ piece, c.isDigit = true) :
    AllFit front piece back := by
  intro u c v split
  exact .inl (digits c (by simp [split]))

theorem rdropWhile_digits {front ds : List Char} (digits : ∀ c ∈ ds, c.isDigit = true)
    (fresh : ∀ d ∈ front.getLast?, ¬ d.isDigit = true) :
    (front ++ ds).rdropWhile Char.isDigit = front := by
  have reversed : ∀ c ∈ ds.reverse, c.isDigit = true :=
    fun c member => digits c (List.mem_reverse.mp member)
  rw [List.rdropWhile, List.reverse_append, List.dropWhile_append_of_pos reversed]
  rcases List.eq_nil_or_concat front with rfl | ⟨before, last, rfl⟩
  · rfl
  · have other : ¬ last.isDigit = true := fresh last (by simp)
    rw [List.concat_eq_append]
    exact List.rdropWhile_concat_neg Char.isDigit before last other

structure Boundary (front rest : List Char) : Prop where
  fresh : DigitFirst rest → ∀ d ∈ front.getLast?, ¬ d.isDigit = true ∧ d ≠ '.'
  pointless : ∀ r, rest = '.' :: r → ¬ Fits front '.' r

theorem not_fits_point {front back : List Char}
    (h : (∀ d ∈ front.getLast?, ¬ d.isDigit = true) ∨ ¬ DigitFirst back ∨
      (front.rdropWhile Char.isDigit).getLast? = some '.') : ¬ Fits front '.' back := by
  rintro (digit | symbol | blank | ⟨_, ⟨d, last, digit⟩, next, apart⟩)
  · contradiction
  · exact absurd symbol (by decide)
  · exact absurd blank (by decide)
  · rcases h with noDigit | none | joined
    · exact noDigit d last digit
    · exact none next
    · exact apart joined

theorem Boundary.start (text : List Char) : Boundary [] text where
  fresh := by simp
  pointless _ _ := not_fits_point (.inl (by simp))

theorem Boundary.after_single {front rest : List Char} {c : Char} (other : ¬ c.isDigit = true)
    (noPoint : c ≠ '.') : Boundary (front ++ [c]) rest where
  fresh _ d last := by
    obtain rfl : c = d := by simpa using last
    exact ⟨other, noPoint⟩
  pointless r _ := by
    apply not_fits_point
    left
    intro d last
    obtain rfl : c = d := by simpa using last
    exact other

theorem Boundary.after_numeral {front numeral rest : List Char}
    (boundary : Boundary front (numeral ++ rest)) (longest : LongestNumeral numeral rest) :
    AllFit front numeral rest ∧ Boundary (front ++ numeral) rest := by
  cases longest with
  | whole digits stops point =>
    refine ⟨allFit_digits digits.2, fun first => absurd first stops, ?_⟩
    intro r same
    exact not_fits_point (.inr (.inl (point r same)))
  | @decimal ds fs rest digits fraction stops =>
    have fresh := boundary.fresh (by simpa using digits.digitFirst ('.' :: fs ++ rest))
    have whole := rdropWhile_digits digits.2 fun d last => (fresh d last).1
    have point : Fits (front ++ ds) '.' (fs ++ rest) := by
      refine .inr (.inr (.inr ⟨rfl, digits.getLast?_append front, fraction.digitFirst rest, ?_⟩))
      rw [whole]
      intro last
      exact (fresh '.' last).2 rfl
    constructor
    · have pointFits : AllFit (front ++ ds) (['.'] ++ fs) rest :=
        (allFit_singleton point).append (allFit_digits fraction.2)
      exact (allFit_digits digits.2).append pointFits
    · refine ⟨fun first => absurd first stops, ?_⟩
      intro r _
      apply not_fits_point
      right; right
      have split : front ++ (ds ++ '.' :: fs) = (front ++ ds ++ ['.']) ++ fs := by simp
      rw [split, rdropWhile_digits fraction.2]
      · simp
      · intro d last
        obtain rfl : '.' = d := by simpa using last
        decide

/-- The outcome of a scan is right about the characters of a text: they all fit, or the one it
complains of is the first that does not. -/
def Blames (front s : List Char) : Except ForeignCharacter (List Token) → Prop
  | .ok _ => AllFit front s []
  | .error f => ∃ u v, s = u ++ f.character :: v ∧ AllFit front u (f.character :: v) ∧
      ¬ Fits (front ++ u) f.character v ∧ f.position = String.utf8Len (front ++ u)

theorem Blames.after {front piece rest : List Char} {x : Except ForeignCharacter (List Token)}
    (fit : AllFit front piece rest) (blames : Blames (front ++ piece) rest x) :
    Blames front (piece ++ rest) x := by
  cases x with
  | ok _ =>
    have others : AllFit (front ++ piece) rest [] := blames
    exact AllFit.append (by rwa [List.append_nil]) others
  | error f =>
    obtain ⟨u, v, split, others, misfit, position⟩ := blames
    rw [List.append_assoc] at misfit position
    refine ⟨piece ++ u, v, ?_, ?_, misfit, position⟩
    · rw [split, List.append_assoc]
    · rw [split] at fit
      exact fit.append others

theorem scanFrom_blames {front s : List Char} {position : Nat} {scanned : List Token}
    (boundary : Boundary front s) (here : position = String.utf8Len front) :
    Blames front s (scanFrom position scanned s) := by
  fun_induction scanFrom position scanned s generalizing front with
  | case1 => exact allFit_nil front []
  | case2 position scanned c s digit numeral =>
    rename_i ih
    have longest := splitNumeral_longest (digitFirst_cons (s := s).mpr digit)
    have split := splitNumeral_append (c :: s)
    rw [← split] at boundary
    obtain ⟨fit, further⟩ := boundary.after_numeral longest
    have there : position + (splitNumeral (c :: s)).1.length =
        String.utf8Len (front ++ (splitNumeral (c :: s)).1) := by
      rw [here, String.utf8Len_append, longest.utf8Len]
    have blames := (ih further there).after fit
    rwa [split] at blames
  | case3 position scanned c s other kind symbol ih =>
    have member := mem_symbols_of_ofSymbol? symbol
    have noPoint : c ≠ '.' := by
      rintro rfl
      contradiction
    have there : position + 1 = String.utf8Len (front ++ [c]) := by
      simp [here, utf8Size_of_mem_symbols member]
    exact (ih (.after_single other noPoint) there).after
      (allFit_singleton (.inr (.inl member)))
  | case4 position scanned c s other noSymbol blank ih =>
    have noPoint : c ≠ '.' := by
      rintro rfl
      contradiction
    have there : position + c.utf8Size = String.utf8Len (front ++ [c]) := by simp [here]
    exact (ih (.after_single other noPoint) there).after
      (allFit_singleton (.inr (.inr (.inl blank))))
  | case5 position scanned c s other noSymbol noBlank =>
    refine ⟨[], s, rfl, allFit_nil _ _, ?_, by simpa using here⟩
    rw [List.append_nil]
    rintro (digit | symbol | blank | ⟨rfl, fits⟩)
    · exact other digit
    · have some := isSome_ofSymbol? symbol
      rw [noSymbol] at some
      contradiction
    · exact noBlank blank
    · exact boundary.pointless s rfl (.inr (.inr (.inr ⟨rfl, fits⟩)))

def FirstMisfit (text : List Char) (f : ForeignCharacter) : Prop :=
  ∃ front back, text = front ++ f.character :: back ∧ ¬ Fits front f.character back ∧
    f.position = (String.ofList front).utf8ByteSize ∧
    ∀ u c v, text = u ++ c :: v → u.length < front.length → Fits u c v

theorem FirstMisfit.unique {text : List Char} {f g : ForeignCharacter}
    (first : FirstMisfit text f) (second : FirstMisfit text g) : f = g := by
  obtain ⟨front, back, split, misfit, position, earlier⟩ := first
  obtain ⟨front', back', split', misfit', position', earlier'⟩ := second
  rcases Nat.lt_trichotomy front.length front'.length with before | same | after
  · exact absurd (earlier' _ _ _ split before) misfit
  · obtain ⟨rfl, others⟩ := List.append_inj (split.symm.trans split') same
    obtain ⟨character, _⟩ := List.cons.inj others
    cases f
    cases g
    simp_all
  · exact absurd (earlier _ _ _ split' after) misfit'

theorem Blames.firstMisfit {s : List Char} {f : ForeignCharacter}
    (blames : Blames [] s (.error f)) : FirstMisfit s f := by
  obtain ⟨u, v, split, fit, misfit, position⟩ := blames
  refine ⟨u, v, split, misfit, ?_, ?_⟩
  · rw [String.utf8ByteSize_ofList]
    exact position
  · intro w c z split' shorter
    rw [split] at split'
    rcases List.append_eq_append_iff.mp split' with ⟨more, inside, _⟩ | ⟨more, inside, others⟩
    · rw [inside, List.length_append] at shorter
      omega
    · cases more with
      | nil =>
        rw [inside, List.append_nil] at shorter
        exact absurd shorter (Nat.lt_irrefl _)
      | cons d more =>
        cases others
        exact fit w c more inside

theorem scan_blames (text : String) : Blames [] text.toList (scan text) :=
  scanFrom_blames (.start text.toList) rfl

structure Standing where
  position : Nat
  scanned : List Token
  rest : List Char

def Standing.start (text : String) : Standing :=
  ⟨0, [], text.toList⟩

def Standing.outcome (x : Standing) : Except ForeignCharacter (List Token) :=
  scanFrom x.position x.scanned x.rest

inductive Step : Standing → Standing → Prop where
  | numeral {position : Nat} {scanned : List Token} {c : Char} {s : List Char} :
      c.isDigit = true →
      Step ⟨position, scanned, c :: s⟩
        ⟨position + (splitNumeral (c :: s)).1.length,
          .lexeme .numeral (String.ofList (splitNumeral (c :: s)).1) :: scanned,
          (splitNumeral (c :: s)).2⟩
  | symbol {position : Nat} {scanned : List Token} {c : Char} {s : List Char} {kind : Kind} :
      ¬ c.isDigit = true → Kind.ofSymbol? c = some kind →
      Step ⟨position, scanned, c :: s⟩
        ⟨position + 1, .lexeme kind (String.singleton c) :: scanned, s⟩
  | blank {position : Nat} {scanned : List Token} {c : Char} {s : List Char} :
      ¬ c.isDigit = true → Kind.ofSymbol? c = none → Text.isBlank c = true →
      Step ⟨position, scanned, c :: s⟩ ⟨position + c.utf8Size, scanned, s⟩

theorem Step.outcome_eq {x y : Standing} (step : Step x y) : x.outcome = y.outcome := by
  cases step with
  | numeral digit => rw [Standing.outcome, Standing.outcome, scanFrom, if_pos digit]
  | symbol other symbol =>
    simp only [Standing.outcome, scanFrom, other, symbol, Bool.false_eq_true, if_false]
  | blank other none blank =>
    simp only [Standing.outcome, scanFrom, other, none, blank, Bool.false_eq_true, if_false,
      if_true]

theorem Step.shorter {x y : Standing} (step : Step x y) : y.rest.length < x.rest.length := by
  cases step with
  | numeral digit => exact splitNumeral_shorter digit
  | symbol | blank => exact Nat.lt_succ_self _

/-- Where no step goes on, the scan is over. -/
theorem Standing.step_or_ends (x : Standing) :
    (∃ y, Step x y) ∨ x.rest = [] ∨ ∃ c s, x.rest = c :: s ∧ x.outcome = .error ⟨c, x.position⟩ := by
  obtain ⟨position, scanned, rest⟩ := x
  cases rest with
  | nil => exact .inr (.inl rfl)
  | cons c s =>
    by_cases digit : c.isDigit = true
    · exact .inl ⟨_, .numeral digit⟩
    · cases symbol : Kind.ofSymbol? c with
      | some kind => exact .inl ⟨_, .symbol digit symbol⟩
      | none =>
        by_cases blank : Text.isBlank c = true
        · exact .inl ⟨_, .blank digit symbol blank⟩
        · refine .inr (.inr ⟨c, s, rfl, ?_⟩)
          simp only [Standing.outcome, scanFrom, digit, symbol, blank, if_false,
            Bool.false_eq_true]

def Standing.At (text : String) (x : Standing) : Prop :=
  ∃ front, text.toList = front ++ x.rest ∧ x.position = String.utf8Len front

theorem Standing.At.step {text : String} {x y : Standing} (at' : x.At text) (step : Step x y) :
    y.At text := by
  obtain ⟨front, split, here⟩ := at'
  cases step with
  | @numeral position scanned c s digit =>
    have longest := splitNumeral_longest (digitFirst_cons (s := s).mpr digit)
    refine ⟨front ++ (splitNumeral (c :: s)).1, ?_, ?_⟩
    · rw [split, List.append_assoc, splitNumeral_append]
    · rw [String.utf8Len_append, longest.utf8Len, ← here]
  | @symbol position scanned c s kind other symbol =>
    have one := utf8Size_of_mem_symbols (mem_symbols_of_ofSymbol? symbol)
    refine ⟨front ++ [c], by simpa using split, ?_⟩
    simpa [one] using here
  | @blank position scanned c s other none blank =>
    refine ⟨front ++ [c], by simpa using split, ?_⟩
    simpa using here

theorem isValid_of_split {text : String} {front rest : List Char}
    (split : text.toList = front ++ rest) :
    String.Pos.Raw.IsValid text ⟨String.utf8Len front⟩ := by
  apply String.Pos.Raw.isValid_iff_exists_append.mpr
  refine ⟨String.ofList front, String.ofList rest, ?_, ?_⟩
  · rw [← String.ofList_append, ← split, String.ofList_toList]
  · rw [String.rawEndPos_ofList]

theorem Standing.At.isValid {text : String} {x : Standing} (at' : x.At text) :
    String.Pos.Raw.IsValid text ⟨x.position⟩ := by
  obtain ⟨front, split, here⟩ := at'
  rw [here]
  exact isValid_of_split split

theorem Standing.At.isValid_digits {text : String} {x : Standing} (at' : x.At text) :
    String.Pos.Raw.IsValid text ⟨x.position + (x.rest.takeWhile Char.isDigit).length⟩ := by
  obtain ⟨front, split, here⟩ := at'
  have digits := utf8Len_digits fun c (member : c ∈ x.rest.takeWhile Char.isDigit) =>
    List.mem_takeWhile_imp member
  rw [← List.takeWhile_append_dropWhile (p := Char.isDigit) (l := x.rest),
    ← List.append_assoc] at split
  have valid := isValid_of_split split
  rwa [String.utf8Len_append, digits, ← here] at valid

theorem reached {text : String} {x : Standing}
    (steps : Relation.ReflTransGen Step (.start text) x) :
    x.At text ∧ scan text = x.outcome := by
  induction steps with
  | refl => exact ⟨⟨[], rfl, rfl⟩, rfl⟩
  | tail _ step ih => exact ⟨ih.1.step step, ih.2.trans step.outcome_eq⟩

/-- A text has tokens exactly if every character of it fits, and otherwise the leftmost one that does
not is to blame, with its offset in bytes. On the way a scan stands only between characters, as does
the end of the digits before it, and what it has come to decides the outcome with the rest of the
text; every step leaves less of that, and where no step goes on, the text ends or the character there
is to blame. -/
theorem scan_eq_error_iff (text : String) :
    ((∃ ts, scan text = .ok ts) ↔
        ∀ front c back, text.toList = front ++ c :: back → Fits front c back) ∧
      (∀ f, scan text = .error f ↔ FirstMisfit text.toList f) ∧
      ∀ x, Relation.ReflTransGen Step (.start text) x →
        scan text = x.outcome ∧
          String.Pos.Raw.IsValid text ⟨x.position⟩ ∧
          String.Pos.Raw.IsValid text ⟨x.position + (x.rest.takeWhile Char.isDigit).length⟩ ∧
          (∀ y, Step x y → y.rest.length < x.rest.length) ∧
          ((∃ y, Step x y) ∨ x.rest = [] ∨
            ∃ c s, x.rest = c :: s ∧ scan text = .error ⟨c, x.position⟩) := by
  have blames := scan_blames text
  refine ⟨?_, ?_, ?_⟩
  · constructor
    · rintro ⟨ts, scanned⟩ front c back split
      rw [scanned] at blames
      have fits := blames front c back split
      rwa [List.append_nil] at fits
    · intro fit
      cases scanned : scan text with
      | ok ts => exact ⟨ts, rfl⟩
      | error f =>
        rw [scanned] at blames
        obtain ⟨front, back, split, misfit, _⟩ := blames.firstMisfit
        exact absurd (fit front _ back split) misfit
  · intro f
    constructor
    · intro scanned
      rw [scanned] at blames
      exact blames.firstMisfit
    · intro misfit
      cases scanned : scan text with
      | ok ts =>
        rw [scanned] at blames
        obtain ⟨front, back, split, misfit, _⟩ := misfit
        have fits := blames front _ back split
        rw [List.append_nil] at fits
        exact absurd fits misfit
      | error g =>
        rw [scanned] at blames
        rw [misfit.unique blames.firstMisfit]
  · intro x steps
    obtain ⟨at', outcome⟩ := reached steps
    refine ⟨outcome, at'.isValid, at'.isValid_digits, fun y step => step.shorter, ?_⟩
    rw [outcome]
    exact x.step_or_ends

/-- Behind a blank of three bytes, the second point of `1.2.3` follows digits that are behind a point. -/
theorem scan_second_point :
    Relation.ReflTransGen Step (.start "\u20031.2.3")
        ⟨6, [.lexeme .numeral "1.2"], ['.', '3']⟩ ∧
      scan "\u20031.2.3" = scanFrom 6 [.lexeme .numeral "1.2"] ['.', '3'] ∧
      String.Pos.Raw.IsValid "\u20031.2.3" ⟨6⟩ ∧
      FirstMisfit "\u20031.2.3".toList ⟨'.', 6⟩ := by
  obtain ⟨_, blamed, stands⟩ := scan_eq_error_iff "\u20031.2.3"
  have start : Standing.start "\u20031.2.3" =
      ⟨0, [], ['\u2003', '1', '.', '2', '.', '3']⟩ := by
    simp [Standing.start]
  have blank : Step ⟨0, [], ['\u2003', '1', '.', '2', '.', '3']⟩
      ⟨3, [], ['1', '.', '2', '.', '3']⟩ := .blank (by decide) rfl (by decide)
  have numeral : Step ⟨3, [], ['1', '.', '2', '.', '3']⟩
      ⟨6, [.lexeme .numeral "1.2"], ['.', '3']⟩ := .numeral (by decide)
  have steps : Relation.ReflTransGen Step (.start "\u20031.2.3")
      ⟨6, [.lexeme .numeral "1.2"], ['.', '3']⟩ := by
    rw [start]
    exact .tail (.single blank) numeral
  have scanned : scan "\u20031.2.3" = .error ⟨'.', 6⟩ := by decide +kernel
  obtain ⟨outcome, valid, _⟩ := stands _ steps
  exact ⟨steps, outcome, valid, (blamed _).mp scanned⟩

end Reckoner.Token
