import Reckoner.Proofs.Session.Coherence

namespace Reckoner

namespace Text

def withoutReturn (line : List UInt8) : List UInt8 :=
  if line.getLast? = some 13 then line.dropLast else line

inductive IsLines : List UInt8 → List (List UInt8) → Prop where
  | nil : IsLines [] []
  /-- The last line may come without a line feed, and then keeps a carriage return. -/
  | last {line : List UInt8} : line ≠ [] → 10 ∉ line → IsLines line [line]
  | next {line rest : List UInt8} {lines : List (List UInt8)} :
      10 ∉ line → IsLines rest lines → IsLines (line ++ 10 :: rest) (withoutReturn line :: lines)

theorem completeLine_reverse (line : List UInt8) :
    completeLine line.reverse = withoutReturn line := by
  rcases List.eq_nil_or_concat line with rfl | ⟨front, b, rfl⟩
  · rfl
  · rw [List.concat_eq_append, List.reverse_append, List.reverse_singleton, List.singleton_append,
      withoutReturn, List.getLast?_concat, List.dropLast_concat]
    by_cases h : b = 13
    · subst h
      simp [completeLine]
    · rw [if_neg (by simpa using h), completeLine]
      · simp
      · intro reversed same
        exact h (List.cons.inj same).1

theorem splitLines_append (pending front rest : List UInt8) :
    splitLines pending (front ++ rest) =
      ⟨(splitLines pending front).lines ++ (splitLines (splitLines pending front).pending rest).lines,
        (splitLines (splitLines pending front).pending rest).pending⟩ := by
  fun_induction splitLines pending front with
  | case1 pending => rfl
  | case2 pending front others ih =>
    simp only [List.cons_append, splitLines, ↓reduceIte, ih, others]
  | case3 pending b front other ih =>
    rw [List.cons_append, splitLines, if_neg other, ih]

theorem splitLines_of_no_lineFeed {line : List UInt8} (noFeed : 10 ∉ line)
    (pending : List UInt8) : splitLines pending line = ⟨[], line.reverse ++ pending⟩ := by
  induction line generalizing pending with
  | nil => rfl
  | cons b line ih =>
    obtain ⟨other, noFeed⟩ := List.ne_and_not_mem_of_not_mem_cons noFeed
    rw [splitLines, if_neg other.symm, ih noFeed, List.reverse_cons, List.append_assoc,
      List.singleton_append]

theorem lines_cons {line : List UInt8} (noFeed : 10 ∉ line) (rest : List UInt8) :
    lines (line ++ 10 :: rest) = withoutReturn line :: lines rest := by
  simp only [lines, splitLines_append, splitLines_of_no_lineFeed noFeed, splitLines, ↓reduceIte,
    List.append_nil, completeLine_reverse, List.nil_append, List.cons_append]

theorem lines_of_no_lineFeed {line : List UInt8} (noFeed : 10 ∉ line) (filled : line ≠ []) :
    lines line = [line] := by
  simp [lines, splitLines_of_no_lineFeed noFeed, lastLine, filled]

theorem isLines_lines (bytes : List UInt8) : IsLines bytes (lines bytes) := by
  by_cases feed : 10 ∈ bytes
  · obtain ⟨line, rest, split, noFeed⟩ := List.eq_append_cons_of_mem feed
    have shorter : rest.length < bytes.length := by
      rw [split, List.length_append, List.length_cons]
      omega
    have others := isLines_lines rest
    rw [split, lines_cons noFeed]
    exact .next noFeed others
  · by_cases empty : bytes = []
    · subst empty
      exact .nil
    · rw [lines_of_no_lineFeed feed empty]
      exact .last empty feed
termination_by bytes.length

theorem isLines_iff (bytes : List UInt8) (ls : List (List UInt8)) :
    IsLines bytes ls ↔ lines bytes = ls := by
  constructor
  · intro isLines
    induction isLines with
    | nil => rfl
    | last filled noFeed => exact lines_of_no_lineFeed noFeed filled
    | next noFeed _ ih => rw [lines_cons noFeed, ih]
  · rintro rfl
    exact isLines_lines bytes

/-- Where a line ends, the bytes before and the bytes after are lines by themselves. -/
theorem lines_append {front : List UInt8} (complete : front.getLast? = some 10)
    (rest : List UInt8) : lines (front ++ rest) = lines front ++ lines rest := by
  obtain ⟨others, rfl⟩ := List.getLast?_eq_some_iff.mp complete
  have settled : (splitLines [] (others ++ [10])).pending = [] := by
    rw [splitLines_append]
    rfl
  have whole := splitLines_append [] (others ++ [10]) rest
  have nothing : lastLine [] = [] := rfl
  rw [settled] at whole
  rw [lines, lines, lines, whole, settled, nothing, List.append_nil, List.append_assoc]

/-- Some of the lines, from the first on, are all the lines of the bytes up to there. -/
theorem exists_front_of_lines {bytes : List UInt8} {before after : List (List UInt8)}
    {line : List UInt8} (split : lines bytes = before ++ line :: after) :
    ∃ front rest, bytes = front ++ rest ∧ lines front = before := by
  induction before generalizing bytes with
  | nil => exact ⟨[], bytes, rfl, rfl⟩
  | cons first before ih =>
    have isLines := (isLines_iff bytes _).mpr split
    rw [List.cons_append] at isLines
    generalize others : before ++ line :: after = ls at isLines
    cases isLines with
    | last => simp at others
    | @next whole rest _ noFeed isLines =>
      obtain ⟨front, rest, rfl, same⟩ := ih (((isLines_iff _ _).mp isLines).trans others.symm)
      refine ⟨whole ++ 10 :: front, rest, ?_, ?_⟩
      · rw [List.append_assoc, List.cons_append]
      · rw [lines_cons noFeed, same]

end Text

def IsUtf8 (bytes : List UInt8) : Prop :=
  ∃ chars : List Char, bytes = chars.flatMap String.utf8EncodeChar

theorem isSome_decode?_iff (bytes : List UInt8) : (decode? bytes).isSome ↔ IsUtf8 bytes := by
  have encodes : ByteArray.IsValidUTF8 ⟨bytes.toArray⟩ ↔ IsUtf8 bytes := by
    constructor
    · rintro ⟨chars, same⟩
      refine ⟨chars, ?_⟩
      have data := congrArg (fun b => b.data.toList) same
      rwa [List.utf8Encode, List.toList_data_toByteArray] at data
    · rintro ⟨chars, rfl⟩
      exact ⟨chars, ByteArray.ext List.data_toByteArray.symm⟩
  rw [← encodes, decode?, String.fromUTF8?]
  split <;> simp_all

instance : DecidablePred IsUtf8 :=
  fun bytes => decidable_of_iff _ (isSome_decode?_iff bytes)

namespace Session

theorem feedBytes?_of_isUtf8 {bytes : List UInt8} (valid : IsUtf8 bytes) (s : Session)
    (time : Nat) : ∃ step, s.feedBytes? time bytes = some step := by
  obtain ⟨line, decoded⟩ := Option.isSome_iff_exists.mp ((isSome_decode?_iff bytes).mpr valid)
  exact ⟨s.feed time line, congrArg (Option.map (s.feed time)) decoded⟩

theorem feedBytes?_of_not_isUtf8 {bytes : List UInt8} (invalid : ¬ IsUtf8 bytes) (s : Session)
    (time : Nat) : s.feedBytes? time bytes = none := by
  have undecoded : decode? bytes = none := by
    rw [← Option.not_isSome_iff_eq_none, isSome_decode?_iff]
    exact invalid
  exact congrArg (Option.map (s.feed time)) undecoded

theorem ofSettings?_of_room {s : Settings} (room : s.capacity.val.toNat ≤ Memo.largestCapacity) :
    ofSettings? s = some { desk := .ofSettings s } :=
  if_pos room

section FeedAll

variable (s : Session) (clock : Nat → Nat) (number : Nat)

/-- A session ends at its first line that is not UTF-8, or else at the end. -/
theorem ending_feedAll (lines : List (List UInt8)) :
    (s.feedAll clock number lines).ending =
      if ∀ line ∈ lines, IsUtf8 line then .complete else .undecodable := by
  induction lines generalizing s number with
  | nil => rfl
  | cons line lines ih =>
    by_cases valid : IsUtf8 line
    · obtain ⟨step, fed⟩ := feedBytes?_of_isUtf8 valid s (clock number)
      simp only [feedAll, fed, ih, List.forall_mem_cons, valid, true_and]
    · simp only [feedAll, feedBytes?_of_not_isUtf8 valid, List.forall_mem_cons, valid, false_and,
        ↓reduceIte]

/-- What some lines print stands, whatever lines come after them. -/
theorem replies_feedAll_prefix (lines others : List (List UInt8)) :
    (s.feedAll clock number lines).replies <+:
      (s.feedAll clock number (lines ++ others)).replies := by
  induction lines generalizing s number with
  | nil => exact List.nil_prefix
  | cons line lines ih =>
    rw [List.cons_append, feedAll, feedAll]
    cases s.feedBytes? (clock number) line with
    | none => exact List.prefix_rfl
    | some step => exact (List.prefix_append_right_inj step.replies).mpr (ih _ _)

/-- From a line that is not UTF-8 on, nothing is printed. -/
theorem replies_feedAll_of_not_isUtf8 {bad : List UInt8} (invalid : ¬ IsUtf8 bad)
    (lines others : List (List UInt8)) :
    (s.feedAll clock number (lines ++ bad :: others)).replies =
      (s.feedAll clock number lines).replies := by
  induction lines generalizing s number with
  | nil => simp only [List.nil_append, feedAll, feedBytes?_of_not_isUtf8 invalid]
  | cons line lines ih =>
    rw [List.cons_append, feedAll, feedAll]
    cases s.feedBytes? (clock number) line with
    | none => rfl
    | some step => simp only [ih]

end FeedAll

end Session

/-- Where room can be reserved for the capacity, the input is taken line by line. If one of its lines
is not UTF-8, the session ends with code 1 and has printed exactly what the lines before the first
such line print as an input of their own, such as the bytes before it; otherwise it ends with code 0.
What is printed for complete lines is never taken back, whatever bytes come after them. -/
theorem ofInput_cut_off (lookup : String → Option String) (clock : Nat → Nat)
    (room : (Settings.ofVariables lookup).result.capacity.val.toNat ≤ Memo.largestCapacity) :
    let printed input := (Transcript.ofInput lookup clock input).output
    let exitCode input := (Transcript.ofInput lookup clock input).ending.exitCode
    (∀ input lines, Text.IsLines input lines ↔ Text.lines input = lines) ∧
      (∀ input before bad after, Text.lines input = before ++ bad :: after →
        (∀ line ∈ before, IsUtf8 line) → ¬ IsUtf8 bad →
          exitCode input = 1 ∧
            (∃ front rest, input = front ++ rest ∧ Text.lines front = before) ∧
            ∀ alone, Text.lines alone = before →
              printed input = printed alone ∧ exitCode alone = 0) ∧
      (∀ input, (∀ line ∈ Text.lines input, IsUtf8 line) → exitCode input = 0) ∧
      ∀ front rest, front.getLast? = some 10 → printed front <+: printed (front ++ rest) := by
  intro printed exitCode
  have begins := Session.ofSettings?_of_room room
  have taken (input : List UInt8) : Transcript.ofInput lookup clock input =
      Session.feedAll { desk := .ofSettings (Settings.ofVariables lookup).result } clock 0
        (Text.lines input) := by
    rw [Transcript.ofInput, begins]
  refine ⟨Text.isLines_iff, ?_, ?_, ?_⟩
  · intro input before bad after split valid invalid
    refine ⟨?_, Text.exists_front_of_lines split, ?_⟩
    · have some' : ¬ ∀ line ∈ before ++ bad :: after, IsUtf8 line :=
        fun all => invalid (all bad (by simp))
      simp only [exitCode, taken, split, Session.ending_feedAll, if_neg some']
      rfl
    · intro alone same
      refine ⟨?_, ?_⟩
      · simp only [printed, taken, split, same, Transcript.output,
          Session.replies_feedAll_of_not_isUtf8 _ _ _ invalid]
      · simp only [exitCode, taken, same, Session.ending_feedAll, if_pos valid]
        rfl
  · intro input valid
    simp only [exitCode, taken, Session.ending_feedAll, if_pos valid]
    rfl
  · intro front rest complete
    simp only [printed, taken, Text.lines_append complete, Transcript.output]
    exact (Session.replies_feedAll_prefix _ _ _ _ _).map Reply.line

/-- After `1/2`, which is answered, a line is the byte `255` alone, so that the later question for the
counts is not taken. -/
theorem ofInput_cut_off_half :
    let lookup := capacityOnly "1"
    let bad : List UInt8 := [255, 10, 58, 115, 116, 97, 116, 115, 10]
    let printed input := (Transcript.ofInput lookup (fun _ => 0) input).output
    let exitCode input := (Transcript.ofInput lookup (fun _ => 0) input).ending.exitCode
    (Settings.ofVariables lookup).result.capacity.val.toNat ≤ Memo.largestCapacity ∧
      Text.lines ([49, 47, 50, 13, 10] ++ bad) =
        [[49, 47, 50]] ++ [255] :: [[58, 115, 116, 97, 116, 115]] ∧
      IsUtf8 [49, 47, 50] ∧ ¬ IsUtf8 [255] ∧
      exitCode ([49, 47, 50, 13, 10] ++ bad) = 1 ∧
      printed ([49, 47, 50, 13, 10] ++ bad) = printed [49, 47, 50, 13, 10] ∧
      printed [49, 47, 50, 13, 10] = ["= 0.5"] ∧
      exitCode [49, 47, 50, 13, 10] = 0 ∧
      printed [49, 47, 50, 13, 10] <+: printed ([49, 47, 50, 13, 10] ++ [49]) := by
  intro lookup bad printed exitCode
  have room : (Settings.ofVariables lookup).result.capacity.val.toNat ≤ Memo.largestCapacity := by
    decide +kernel
  have split : Text.lines ([49, 47, 50, 13, 10] ++ bad) =
      [[49, 47, 50]] ++ [255] :: [[58, 115, 116, 97, 116, 115]] := by decide
  have valid : IsUtf8 [49, 47, 50] := by decide +kernel
  have invalid : ¬ IsUtf8 [255] := by decide +kernel
  obtain ⟨_, cut, complete, grows⟩ := ofInput_cut_off lookup (fun _ => 0) room
  obtain ⟨fails, _, same⟩ := cut _ _ _ _ split (by simpa using valid) invalid
  obtain ⟨printedSame, succeeds⟩ := same [49, 47, 50, 13, 10] (by decide)
  have half : printed [49, 47, 50, 13, 10] = ["= 0.5"] := by decide +kernel
  exact ⟨room, split, valid, invalid, fails, printedSame, half, succeeds, grows _ [49] (by decide)⟩

end Reckoner
