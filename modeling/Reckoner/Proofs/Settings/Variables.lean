import Reckoner.Number.Numeral
import Reckoner.Proofs.Token.Written
import Reckoner.Settings.Basic

namespace Reckoner

open Token (IsDigits IsGap isGap_empty isGap_blank isGap_singleton)

namespace Text

section Trim

variable {front body back : List Char}

theorem dropWhile_blank (blank : ∀ c ∈ front, isBlank c = true)
    (stops : ∀ c ∈ body.head?, isBlank c = false) : (front ++ body).dropWhile isBlank = body := by
  rw [List.dropWhile_append_of_pos blank]
  cases body with
  | nil => rfl
  | cons c body => rw [List.dropWhile_cons_of_neg (by simp [stops c rfl])]

theorem trimBlank_append (blankFront : ∀ c ∈ front, isBlank c = true)
    (blankBack : ∀ c ∈ back, isBlank c = true) (nonempty : body ≠ [])
    (solid : ∀ c ∈ body, isBlank c = false) : trimBlank (front ++ body ++ back) = body := by
  have first : ∀ c ∈ (body ++ back).head?, isBlank c = false := by
    intro c head
    rw [List.head?_append_of_ne_nil body nonempty] at head
    exact solid c (List.mem_of_mem_head? head)
  have reversed : ∀ c ∈ back.reverse, isBlank c = true :=
    fun c member => blankBack c (List.mem_reverse.mp member)
  have last : ∀ c ∈ body.reverse.head?, isBlank c = false :=
    fun c head => solid c (List.mem_reverse.mp (List.mem_of_mem_head? head))
  rw [trimBlank, List.append_assoc, dropWhile_blank blankFront first, List.reverse_append,
    dropWhile_blank reversed last, List.reverse_reverse]

theorem exists_trimBlank (s : List Char) :
    ∃ front back, (∀ c ∈ front, isBlank c = true) ∧ (∀ c ∈ back, isBlank c = true) ∧
      s = front ++ trimBlank s ++ back := by
  refine ⟨s.takeWhile isBlank, ((s.dropWhile isBlank).reverse.takeWhile isBlank).reverse, ?_, ?_, ?_⟩
  · intro c member
    exact List.mem_takeWhile_imp member
  · intro c member
    exact List.mem_takeWhile_imp (List.mem_reverse.mp member)
  · rw [trimBlank, List.append_assoc, ← List.reverse_append, List.takeWhile_append_dropWhile,
      List.reverse_reverse, List.takeWhile_append_dropWhile]

end Trim

end Text

namespace Size

/-- The text is a number in decimal digits, perhaps with a plus sign in front. -/
inductive Denotes : List Char → Nat → Prop where
  | digits {ds : List Char} : IsDigits ds → Denotes ds (Number.digitsValue ds)
  | plus {ds : List Char} : IsDigits ds → Denotes ('+' :: ds) (Number.digitsValue ds)

theorem not_blank_of_isDigit {c : Char} (digit : c.isDigit = true) : Text.isBlank c = false := by
  apply Bool.eq_false_iff.mpr
  intro blank
  exact (Token.not_numeric_of_blank blank).1 digit

theorem Denotes.solid {s : List Char} {n : Nat} (denotes : Denotes s n) :
    s ≠ [] ∧ ∀ c ∈ s, Text.isBlank c = false := by
  cases denotes with
  | digits digits => exact ⟨digits.1, fun c member => not_blank_of_isDigit (digits.2 c member)⟩
  | plus digits =>
    refine ⟨List.cons_ne_nil _ _, ?_⟩
    rw [List.forall_mem_cons]
    exact ⟨by decide, fun c member => not_blank_of_isDigit (digits.2 c member)⟩

theorem le_ofDigitChars (init : Nat) (ds : List Char) : init ≤ Nat.ofDigitChars 10 ds init := by
  rw [Nat.ofDigitChars_eq_ofDigitChars_zero]
  have positive : 0 < 10 ^ ds.length := Nat.pow_pos (by decide)
  exact Nat.le_add_right_of_le (Nat.le_mul_of_pos_left init positive)

/-- The check for overflow comes digit by digit; what it refuses, the whole number exceeds too. -/
theorem readDigits_eq_ok_iff {read n : Nat} {s : List Char} (small : read < UInt64.size) :
    readDigits read s = .ok n ↔
      (∀ c ∈ s, c.isDigit = true) ∧ Nat.ofDigitChars 10 s read = n ∧ n < UInt64.size := by
  fun_induction readDigits read s with
  | case1 read =>
    rw [Except.ok.injEq, Nat.ofDigitChars_nil]
    constructor
    · rintro rfl
      exact ⟨by simp, rfl, small⟩
    · exact fun h => h.2.1
  | case2 read c s other => simp [other]
  | case3 read c s digit next large =>
    have grown := le_ofDigitChars next s
    rw [Nat.ofDigitChars_cons]
    constructor
    · intro refused
      contradiction
    · rintro ⟨_, rfl, bound⟩
      exact absurd (Nat.lt_of_le_of_lt grown bound) (Nat.not_lt.mpr large)
  | case4 read c s digit next fits ih =>
    rw [ih (Nat.lt_of_not_le fits), List.forall_mem_cons, Nat.ofDigitChars_cons]
    simp only [not_not] at digit
    simp only [digit, true_and, next]

theorem map_readDigits_eq_ok_iff {s : List Char} {x : UInt64} :
    (readDigits 0 s).map UInt64.ofNat = .ok x ↔
      (∀ c ∈ s, c.isDigit = true) ∧ Number.digitsValue s = x.toNat := by
  have exactly (n : Nat) := readDigits_eq_ok_iff (n := n) (s := s) (by decide : 0 < UInt64.size)
  constructor
  · intro h
    cases read : readDigits 0 s with
    | error fault =>
      rw [read] at h
      contradiction
    | ok n =>
      rw [read] at h
      obtain rfl : UInt64.ofNat n = x := Except.ok.inj h
      obtain ⟨digits, value, fits⟩ := (exactly n).mp read
      rw [UInt64.toNat_ofNat_of_lt' fits]
      exact ⟨digits, value⟩
  · rintro ⟨digits, value⟩
    have read := (exactly x.toNat).mpr ⟨digits, value, x.toNat_lt⟩
    rw [read, Except.map, UInt64.ofNat_toNat]

theorem denotes_plus_iff {ds : List Char} {n : Nat} :
    Denotes ('+' :: ds) n ↔ IsDigits ds ∧ Number.digitsValue ds = n := by
  constructor
  · intro denotes
    cases denotes with
    | digits digits => exact absurd (digits.2 '+' List.mem_cons_self) (by decide)
    | plus digits => exact ⟨digits, rfl⟩
  · rintro ⟨digits, rfl⟩
    exact .plus digits

theorem denotes_iff_of_unsigned {s : List Char} {n : Nat} (unsigned : ∀ ds, s ≠ '+' :: ds) :
    Denotes s n ↔ IsDigits s ∧ Number.digitsValue s = n := by
  constructor
  · intro denotes
    cases denotes with
    | digits digits => exact ⟨digits, rfl⟩
    | plus => exact absurd rfl (unsigned _)
  · rintro ⟨digits, rfl⟩
    exact .digits digits

theorem read_eq_ok_iff {s : List Char} {x : UInt64} : read s = .ok x ↔ Denotes s x.toNat := by
  have readable {ds : List Char} (some : ds ≠ []) :
      (readDigits 0 ds).map UInt64.ofNat = .ok x ↔
        IsDigits ds ∧ Number.digitsValue ds = x.toNat := by
    rw [map_readDigits_eq_ok_iff, IsDigits, and_iff_right some]
  unfold read
  split
  · rw [denotes_iff_of_unsigned (by simp)]
    simp [IsDigits]
  · rw [denotes_plus_iff]
    simp [IsDigits]
  · next ds some =>
    rw [denotes_plus_iff, readable]
    rintro rfl
    exact some rfl
  · next some _ unsigned =>
    rw [denotes_iff_of_unsigned unsigned, readable some]

theorem readPositive_eq_ok_iff {s : List Char} {x : PositiveSize} :
    readPositive s = .ok x ↔ Denotes s x.val.toNat := by
  rw [← read_eq_ok_iff, readPositive]
  cases read s with
  | error fault => simp
  | ok n =>
    by_cases positive : 0 < n
    · simp [positive, Subtype.ext_iff]
    · have other : n ≠ x.val := by
        rintro rfl
        exact positive x.property
      simp [positive, other]

theorem denotes_repr (n : Nat) : Denotes (Nat.repr n).toList n := by
  have digits : IsDigits (Nat.toDigits 10 n) :=
    ⟨Nat.toDigits_ne_nil, fun c member => Nat.isDigit_of_mem_toDigits (by decide) (by decide) member⟩
  have denotes := Denotes.digits digits
  rwa [Number.digitsValue, Nat.ofDigitChars_ten_toDigits, ← Nat.toList_repr] at denotes

end Size

namespace Settings

/-- The text is a number in the range of a setting, with white space around it or not. -/
def Gives (least : Nat) (raw : String) (n : Nat) : Prop :=
  ∃ front body back, IsGap front ∧ IsGap back ∧ raw = front ++ body ++ back ∧
    Size.Denotes body.toList n ∧ least ≤ n ∧ n < UInt64.size

theorem gives_iff {least : Nat} {raw : String} {n : Nat} :
    Gives least raw n ↔
      Size.Denotes (Text.trimBlank raw.toList) n ∧ least ≤ n ∧ n < UInt64.size := by
  constructor
  · rintro ⟨front, body, back, blankFront, blankBack, rfl, denotes, range⟩
    obtain ⟨nonempty, solid⟩ := denotes.solid
    rw [String.toList_append, String.toList_append,
      Text.trimBlank_append blankFront blankBack nonempty solid]
    exact ⟨denotes, range⟩
  · rintro ⟨denotes, range⟩
    obtain ⟨front, back, blankFront, blankBack, split⟩ := Text.exists_trimBlank raw.toList
    refine ⟨String.ofList front, String.ofList (Text.trimBlank raw.toList), String.ofList back,
      ?_, ?_, ?_, ?_, range⟩
    · rwa [IsGap, String.toList_ofList]
    · rwa [IsGap, String.toList_ofList]
    · rw [← String.ofList_append, ← String.ofList_append, ← split, String.ofList_toList]
    · rwa [String.toList_ofList]

theorem gives_repr {least n : Nat} (above : least ≤ n) (below : n < UInt64.size) :
    Gives least (Nat.repr n) n :=
  ⟨"", Nat.repr n, "", isGap_empty, isGap_empty, by simp, Size.denotes_repr n, above, below⟩

/-- The value of a setting by the text of its variable, and the events of reading it. -/
structure IsSetting (name : String) (least default : Nat) (raw? : Option String) (value : Nat)
    (events : List Event) : Prop where
  absent : raw? = none → value = default ∧ events = []
  given : ∀ raw n, raw? = some raw → Gives least raw n → value = n ∧ events = []
  ignored : ∀ raw, raw? = some raw → (∀ n, ¬ Gives least raw n) →
    value = default ∧ ∃ fault, events = [.ignored name raw fault]

/-- A reader of sizes that accepts the texts in range makes a setting of a variable. -/
theorem isSetting_readVariable {α : Type} {read : List Char → Except SizeFault α} {size : α → Nat}
    {least : Nat}
    (reads : ∀ s n, (∃ x, read s = .ok x ∧ size x = n) ↔
      Size.Denotes s n ∧ least ≤ n ∧ n < UInt64.size)
    (name : String) (default : α) (raw? : Option String) :
    IsSetting name least (size default) raw?
      (size ((readVariable name read raw?).result.getD default))
      (readVariable name read raw?).events where
  absent := by
    rintro rfl
    exact ⟨rfl, rfl⟩
  given := by
    rintro raw n rfl gives
    obtain ⟨x, ok, rfl⟩ := (reads _ _).mpr (gives_iff.mp gives)
    simp only [readVariable, ok, Option.getD_some, and_self]
  ignored := by
    rintro raw rfl none
    cases outcome : read (Text.trimBlank raw.toList) with
    | ok x => exact absurd (gives_iff.mpr ((reads _ _).mp ⟨x, outcome, rfl⟩)) (none (size x))
    | error fault =>
      simp only [readVariable, outcome, Option.getD_none, true_and]
      exact ⟨fault, rfl⟩

theorem reads_size (s : List Char) (n : Nat) :
    (∃ x, Size.read s = .ok x ∧ x.toNat = n) ↔ Size.Denotes s n ∧ 0 ≤ n ∧ n < UInt64.size := by
  constructor
  · rintro ⟨x, read, rfl⟩
    exact ⟨Size.read_eq_ok_iff.mp read, Nat.zero_le _, x.toNat_lt⟩
  · rintro ⟨denotes, _, below⟩
    have value := UInt64.toNat_ofNat_of_lt' below
    refine ⟨UInt64.ofNat n, ?_, value⟩
    rwa [Size.read_eq_ok_iff, value]

theorem reads_positiveSize (s : List Char) (n : Nat) :
    (∃ x, Size.readPositive s = .ok x ∧ x.val.toNat = n) ↔
      Size.Denotes s n ∧ 1 ≤ n ∧ n < UInt64.size := by
  constructor
  · rintro ⟨x, read, rfl⟩
    exact ⟨Size.readPositive_eq_ok_iff.mp read, UInt64.lt_iff_toNat_lt.mp x.property,
      x.val.toNat_lt⟩
  · rintro ⟨denotes, above, below⟩
    have value := UInt64.toNat_ofNat_of_lt' below
    have positive : 0 < UInt64.ofNat n := by
      rw [UInt64.lt_iff_toNat_lt, value]
      exact above
    refine ⟨⟨UInt64.ofNat n, positive⟩, ?_, value⟩
    rwa [Size.readPositive_eq_ok_iff, value]

theorem isSetting_ofVariables (lookup : String → Option String) :
    ∃ first second third, (ofVariables lookup).events = first ++ second ++ third ∧
      IsSetting capacityVariable 1 1000 (lookup capacityVariable)
        (ofVariables lookup).result.capacity.val.toNat first ∧
      IsSetting ttlVariable 0 3600 (lookup ttlVariable) (ofVariables lookup).result.ttl.toNat
        second ∧
      IsSetting maxDepthVariable 1 256 (lookup maxDepthVariable)
        (ofVariables lookup).result.maxDepth.toNat third := by
  have capacity := isSetting_readVariable reads_positiveSize capacityVariable ⟨1000, by decide⟩
    (lookup capacityVariable)
  have ttl := isSetting_readVariable reads_size ttlVariable 3600 (lookup ttlVariable)
  have maxDepth := isSetting_readVariable reads_positiveSize maxDepthVariable ⟨256, by decide⟩
    (lookup maxDepthVariable)
  -- the depth is a positive size where it is read, and any size where it is kept
  have depth := Option.getD_map Subtype.val ⟨256, by decide⟩
    (readVariable maxDepthVariable Size.readPositive (lookup maxDepthVariable)).result
  refine ⟨_, _, _, rfl, capacity, ttl, ?_⟩
  rw [← depth] at maxDepth
  exact maxDepth

theorem line_ignored (name raw : String) (fault : SizeFault) :
    (Event.ignored name raw fault).line =
      "WARN Ignoring " ++ name ++ "=" ++ Text.quoted raw ++ ": " ++ fault.message := by
  have text : (Event.ignored name raw fault).text =
      "Ignoring " ++ (name ++ "=" ++ Text.quoted raw ++ ": " ++ fault.message) := rfl
  have front : "WARN Ignoring " = "WARN" ++ " " ++ "Ignoring " := rfl
  calc (Event.ignored name raw fault).line
    _ = "WARN" ++ " " ++ (Event.ignored name raw fault).text := rfl
    _ = _ := by
      rw [text, front]
      simp only [String.append_assoc]

theorem ofVariables_repr {lookup : String → Option String} {s : Settings} (deep : 0 < s.maxDepth)
    (capacity : lookup capacityVariable = some (Nat.repr s.capacity.val.toNat))
    (ttl : lookup ttlVariable = some (Nat.repr s.ttl.toNat))
    (maxDepth : lookup maxDepthVariable = some (Nat.repr s.maxDepth.toNat)) :
    ofVariables lookup = ⟨s, []⟩ := by
  obtain ⟨first, second, third, events, capacityRead, ttlRead, maxDepthRead⟩ :=
    isSetting_ofVariables lookup
  have positive : 1 ≤ s.capacity.val.toNat := UInt64.lt_iff_toNat_lt.mp s.capacity.property
  have deep : 1 ≤ s.maxDepth.toNat := UInt64.lt_iff_toNat_lt.mp deep
  obtain ⟨sameCapacity, rfl⟩ :=
    capacityRead.given _ _ capacity (gives_repr positive s.capacity.val.toNat_lt)
  obtain ⟨sameTtl, rfl⟩ := ttlRead.given _ _ ttl (gives_repr (Nat.zero_le _) s.ttl.toNat_lt)
  obtain ⟨sameDepth, rfl⟩ :=
    maxDepthRead.given _ _ maxDepth (gives_repr deep s.maxDepth.toNat_lt)
  have result : (ofVariables lookup).result = s := by
    cases s
    exact (Settings.mk.injEq ..).mpr ⟨Subtype.ext (UInt64.toNat_inj.mp sameCapacity),
      UInt64.toNat_inj.mp sameTtl, UInt64.toNat_inj.mp sameDepth⟩
  exact (Traced.mk.injEq ..).mpr ⟨result, events⟩

/-- Each setting is the number that the text of its variable denotes, if that is in range, and else
its default, whatever the other variables say. Texts given in vain are reported in the order of the
settings, one warning each. A warning names the variable and quotes the text so that it can be told
from every other text, and printed characters of ASCII can be read as they are. So settings are read
back from their decimal texts. -/
theorem ofVariables_each (lookup : String → Option String) :
    (∃ first second third, (ofVariables lookup).events = first ++ second ++ third ∧
        IsSetting capacityVariable 1 1000 (lookup capacityVariable)
          (ofVariables lookup).result.capacity.val.toNat first ∧
        IsSetting ttlVariable 0 3600 (lookup ttlVariable) (ofVariables lookup).result.ttl.toNat
          second ∧
        IsSetting maxDepthVariable 1 256 (lookup maxDepthVariable)
          (ofVariables lookup).result.maxDepth.toNat third) ∧
      (∀ name raw fault, (Event.ignored name raw fault).line =
        "WARN Ignoring " ++ name ++ "=" ++ Text.quoted raw ++ ": " ++ fault.message) ∧
      (∀ raw rest other more : String,
        Text.quoted raw ++ rest = Text.quoted other ++ more → raw = other ∧ rest = more) ∧
      (∀ raw : String, (∀ c ∈ raw.toList, ' ' ≤ c ∧ c ≤ '~' ∧ c ≠ '\x22' ∧ c ≠ '\\') →
        Text.quoted raw = "\"" ++ raw ++ "\"") ∧
      (∀ other : String → Option String,
        (other capacityVariable = lookup capacityVariable →
          (ofVariables other).result.capacity = (ofVariables lookup).result.capacity) ∧
        (other ttlVariable = lookup ttlVariable →
          (ofVariables other).result.ttl = (ofVariables lookup).result.ttl) ∧
        (other maxDepthVariable = lookup maxDepthVariable →
          (ofVariables other).result.maxDepth = (ofVariables lookup).result.maxDepth)) ∧
      ∀ s : Settings, 0 < s.maxDepth →
        lookup capacityVariable = some (Nat.repr s.capacity.val.toNat) →
        lookup ttlVariable = some (Nat.repr s.ttl.toNat) →
        lookup maxDepthVariable = some (Nat.repr s.maxDepth.toNat) →
          ofVariables lookup = ⟨s, []⟩ := by
  refine ⟨isSetting_ofVariables lookup, line_ignored, fun _ _ _ _ => Text.quoted_append_inj,
    fun _ => Text.quoted_of_plain, ?_, ?_⟩
  · intro other
    refine ⟨?_, ?_, ?_⟩
    · intro same
      simp only [ofVariables, same]
    · intro same
      simp only [ofVariables, same]
    · intro same
      simp only [ofVariables, same]
  · intro s deep capacity ttl maxDepth
    exact ofVariables_repr deep capacity ttl maxDepth

/-- A capacity with a sign, zeros in front and blanks around it; a time to live one too large; and no
depth. Then the same capacity as plain digits, with a time to live and a depth that are in range. -/
theorem ofVariables_each_too_large :
    let lookup (name : String) : Option String :=
      if name = capacityVariable then some "\u3000+007 "
      else if name = ttlVariable then some "18446744073709551616"
      else none
    let plain (name : String) : Option String :=
      if name = capacityVariable then some "7" else if name = ttlVariable then some "0" else some "1"
    let s : Settings := { capacity := ⟨7, by decide⟩, ttl := 0, maxDepth := 1 }
    (ofVariables lookup).result.capacity.val.toNat = 7 ∧
      (ofVariables lookup).result.ttl.toNat = 3600 ∧
      (ofVariables lookup).result.maxDepth.toNat = 256 ∧
      (∃ fault, (ofVariables lookup).events =
          [.ignored ttlVariable "18446744073709551616" fault] ∧
        (ofVariables lookup).events.map Event.line =
          ["WARN Ignoring CALCULUS_CACHE_TTL_SECS=\"18446744073709551616\": " ++ fault.message]) ∧
      (ofVariables fun _ => none).result.maxDepth = (ofVariables lookup).result.maxDepth ∧
      0 < s.maxDepth ∧ ofVariables plain = ⟨s, []⟩ := by
  intro lookup plain s
  obtain ⟨⟨first, second, third, events, capacity, ttl, maxDepth⟩, line, _, quoted, apart, _⟩ :=
    ofVariables_each lookup
  obtain ⟨_, _, _, _, _, readBack⟩ := ofVariables_each plain
  have digits : IsDigits ['0', '0', '7'] := ⟨by decide, by simp⟩
  have blank : IsGap "\u3000" := isGap_singleton (c := '\u3000') rfl
  have denotes : Size.Denotes "+007".toList 7 := Size.denotes_plus_iff.mpr ⟨digits, by decide⟩
  have seven : Gives 1 "\u3000+007 " 7 :=
    ⟨"\u3000", "+007", " ", blank, isGap_blank, rfl, denotes, by decide, by decide⟩
  have tooLarge : ∀ n, ¬ Gives 0 "18446744073709551616" n := by
    intro n gives
    obtain ⟨x, read, _⟩ := (reads_size _ n).mpr (gives_iff.mp gives)
    have refused : Size.read (Text.trimBlank "18446744073709551616".toList) = .error .tooLarge := by
      decide +kernel
    rw [refused] at read
    contradiction
  obtain ⟨capacityRead, rfl⟩ := capacity.given _ _ rfl seven
  obtain ⟨ttlKept, fault, rfl⟩ := ttl.ignored _ rfl tooLarge
  obtain ⟨depthKept, rfl⟩ := maxDepth.absent rfl
  have printed : (Event.ignored ttlVariable "18446744073709551616" fault).line =
      "WARN Ignoring CALCULUS_CACHE_TTL_SECS=\"18446744073709551616\": " ++ fault.message := by
    rw [line, quoted "18446744073709551616" (by simp)]
    rfl
  have lines := congrArg (List.map Event.line) events
  have deep : 0 < s.maxDepth := by decide
  refine ⟨capacityRead, ttlKept, depthKept, ⟨fault, events, lines.trans ?_⟩, (apart _).2.2 rfl, deep,
    readBack s deep (by decide) (by decide) (by decide)⟩
  exact congrArg (fun l => [l]) printed

end Settings

end Reckoner
