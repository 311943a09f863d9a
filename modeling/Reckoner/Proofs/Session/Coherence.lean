import Reckoner.Proofs.Desk.HitLaw
import Reckoner.Proofs.Session.OneLine

namespace Reckoner

def trimmed (line : String) : String :=
  String.ofList (Text.trimBlank line.toList)

def IsQuery (line : String) : Prop :=
  line ≠ "" ∧ trimmed line ≠ ":history" ∧ trimmed line ≠ ":stats"

instance : DecidablePred IsQuery :=
  fun _ => inferInstanceAs (Decidable (_ ∧ _))

structure Query where
  time : Nat
  text : String

namespace Query

def ofLine (time : Nat) (line : String) : List Query :=
  if IsQuery line then [⟨time, line⟩] else []

def ofLines (clock : Nat → Nat) (number : Nat) : List String → List Query
  | [] => []
  | line :: lines => ofLine (clock number) line ++ ofLines clock (number + 1) lines

def answered (limit : Nat) (line : String) : String :=
  match evaluate limit line with
  | .ok x => s!"= {Number.text x}"
  | .error refusal => s!"error: {refusal.message}"

def recorded (limit : Nat) (q : Query) : String :=
  match evaluate limit q.text with
  | .ok x => s!"[{q.time / 1000000000}] {q.text} = {Number.text x}"
  | .error refusal => s!"[{q.time / 1000000000}] {q.text} -> error: {refusal.message}"

end Query

def valuedTexts (limit : Nat) (past : List Query) : Nat :=
  ((past.map Query.text).filter (hasValue limit)).toFinset.card

def Transcript.output (t : Transcript) : List String :=
  t.replies.map Reply.line

inductive Prints (limit capacity : Nat) (past : List Query) : String → List String → Prop where
  | nothing {line : String} : line = "" → Prints limit capacity past line []
  | query {line : String} :
      IsQuery line → Prints limit capacity past line [Query.answered limit line]
  | history {line : String} : trimmed line = ":history" →
      Prints limit capacity past line (past.map (Query.recorded limit))
  | stats {line : String} {hits misses : Nat} :
      trimmed line = ":stats" → hits + misses = past.length →
      Prints limit capacity past line
        [s!"hits: {hits}, misses: {misses}, cached: {min capacity (valuedTexts limit past)}"]

/-- The output is made of one piece a line, each of which goes with the lines so far. -/
def Coherent (limit capacity : Nat) (clock : Nat → Nat) (number : Nat) (past : List Query)
    (lines output : List String) : Prop :=
  ∃ pieces : List (List String), output = pieces.flatten ∧ pieces.length = lines.length ∧
    ∀ before line after, lines = before ++ line :: after → ∃ piece,
      pieces[before.length]? = some piece ∧
        Prints limit capacity (past ++ Query.ofLines clock number before) line piece

theorem Prints.eq_of_isQuery {limit capacity : Nat} {past : List Query} {line : String}
    {piece : List String} (prints : Prints limit capacity past line piece) (query : IsQuery line) :
    piece = [Query.answered limit line] := by
  cases prints with
  | nothing empty => exact absurd empty query.1
  | query => rfl
  | history command => exact absurd command query.2.1
  | stats command => exact absurd command query.2.2

theorem coherent_nil (limit capacity : Nat) (clock : Nat → Nat) (number : Nat)
    (past : List Query) : Coherent limit capacity clock number past [] [] := by
  refine ⟨[], rfl, rfl, ?_⟩
  intro before line after split
  simp at split

theorem Coherent.cons {limit capacity : Nat} {clock : Nat → Nat} {number : Nat}
    {past : List Query} {line : String} {lines piece output : List String}
    (prints : Prints limit capacity past line piece)
    (others : Coherent limit capacity clock (number + 1)
      (past ++ Query.ofLine (clock number) line) lines output) :
    Coherent limit capacity clock number past (line :: lines) (piece ++ output) := by
  obtain ⟨pieces, rfl, length, further⟩ := others
  refine ⟨piece :: pieces, rfl, congrArg (· + 1) length, ?_⟩
  intro before other after split
  cases before with
  | nil =>
    cases split
    exact ⟨piece, rfl, by simpa [Query.ofLines] using prints⟩
  | cons first before =>
    cases split
    obtain ⟨piece, found, prints⟩ := further before other after rfl
    exact ⟨piece, found, by rwa [List.append_assoc] at prints⟩

theorem unbroken_answered (limit : Nat) {line : String} (whole : Unbroken line) :
    Unbroken (Query.answered limit line) := by
  unfold Query.answered
  cases evaluated : evaluate limit line with
  | ok x =>
    simp only [ToString.toString, unbroken_append, Number.unbroken_text]
    decide
  | error refusal =>
    simp only [ToString.toString, unbroken_append, unbroken_refusal whole evaluated]
    decide

theorem unbroken_recorded (limit : Nat) {q : Query} (whole : Unbroken q.text) :
    Unbroken (q.recorded limit) := by
  unfold Query.recorded
  cases evaluated : evaluate limit q.text with
  | ok x =>
    simp only [ToString.toString, unbroken_append, unbroken_repr, whole, Number.unbroken_text]
    decide
  | error refusal =>
    simp only [ToString.toString, unbroken_append, unbroken_repr, whole,
      unbroken_refusal whole evaluated]
    decide

theorem Prints.unbroken {limit capacity : Nat} {past : List Query} {line : String}
    {piece : List String} (prints : Prints limit capacity past line piece)
    (whole : Unbroken line) (wholes : ∀ q ∈ past, Unbroken q.text) :
    ∀ printed ∈ piece, Unbroken printed := by
  intro printed member
  cases prints with
  | nothing empty => contradiction
  | query isQuery =>
    obtain rfl := List.mem_singleton.mp member
    exact unbroken_answered limit whole
  | history command =>
    obtain ⟨q, inPast, rfl⟩ := List.mem_map.mp member
    exact unbroken_recorded limit (wholes q inPast)
  | stats command counted =>
    obtain rfl := List.mem_singleton.mp member
    simp only [ToString.toString, unbroken_append, unbroken_repr]
    decide

theorem Query.mem_lines {clock : Nat → Nat} {number : Nat} {lines : List String} {q : Query}
    (member : q ∈ ofLines clock number lines) : q.text ∈ lines := by
  induction lines generalizing number with
  | nil => contradiction
  | cons line lines ih =>
    rcases List.mem_append.mp member with member | member
    · unfold ofLine at member
      split at member
      · obtain rfl := List.mem_singleton.mp member
        exact List.mem_cons_self
      · contradiction
    · exact List.mem_cons_of_mem line (ih member)

theorem Coherent.unbroken {limit capacity : Nat} {clock : Nat → Nat} {number : Nat}
    {lines output : List String} (coherent : Coherent limit capacity clock number [] lines output)
    (whole : ∀ line ∈ lines, Unbroken line) : ∀ printed ∈ output, Unbroken printed := by
  obtain ⟨pieces, rfl, length, further⟩ := coherent
  intro printed member
  obtain ⟨piece, inPieces, member⟩ := List.mem_flatten.mp member
  obtain ⟨i, bound, rfl⟩ := List.getElem_of_mem inPieces
  have inLines : i < lines.length := length ▸ bound
  have split : lines = lines.take i ++ lines[i] :: lines.drop (i + 1) := by simp
  obtain ⟨piece, found, prints⟩ := further _ _ _ split
  rw [List.length_take_of_le inLines.le, List.getElem?_eq_getElem bound] at found
  cases found
  apply prints.unbroken (whole _ (List.getElem_mem inLines)) _ printed member
  intro q inPast
  exact whole _ (List.mem_of_mem_take (Query.mem_lines inPast))

theorem ofLine_cases (line : String) :
    (line = "" ∧ Request.ofLine line = .nothing) ∨
      (trimmed line = ":history" ∧ Request.ofLine line = .history) ∨
      (trimmed line = ":stats" ∧ Request.ofLine line = .stats) ∨
      (IsQuery line ∧ Request.ofLine line = .evaluate line) := by
  unfold Request.ofLine
  split
  · next empty => exact .inl ⟨by simpa using empty, rfl⟩
  · next filled =>
    have nonempty : line ≠ "" := by simpa using filled
    dsimp only
    split
    · next history => exact .inr (.inl ⟨history, rfl⟩)
    · next noHistory =>
      split
      · next stats => exact .inr (.inr (.inl ⟨stats, rfl⟩))
      · next noStats => exact .inr (.inr (.inr ⟨⟨nonempty, noHistory, noStats⟩, rfl⟩))

namespace Session

open Recency

/-- The session has taken the queries: its memo holds the last ones with a value, each one has been
counted, and the journal has them all with their results. -/
structure Keeps (limit capacity : Nat) (past : List Query) (s : Session) : Prop where
  sound : s.desk.Sound
  limit_eq : s.desk.limit = limit
  capacity_eq : s.desk.memo.capacity = capacity
  keys_eq : s.desk.memo.keys =
    recent capacity ((past.map Query.text).reverse.filter (hasValue limit))
  counted : s.desk.hits + s.desk.misses = past.length
  recorded : s.journal.records.toList =
    past.map fun q => ⟨q.text, q.time, .ofResult (evaluate limit q.text)⟩

theorem Keeps.ofSettings {s : Settings} {session : Session}
    (begins : ofSettings? s = some session) :
    Keeps s.maxDepth.toNat s.capacity.val.toNat [] session := by
  unfold ofSettings? at begins
  split at begins
  · cases begins
    exact ⟨Desk.Sound.ofSettings s, rfl, rfl, (recent_nil _).symm, rfl, rfl⟩
  · contradiction

section Feed

variable {limit capacity : Nat} {past : List Query} {s : Session}

theorem Keeps.size_eq (keeps : Keeps limit capacity past s) :
    s.desk.memo.size = min capacity (valuedTexts limit past) := by
  rw [← Memo.length_keys, keeps.keys_eq, length_recent, List.filter_reverse,
    List.toFinset_reverse, valuedTexts]

theorem line_answer (limit : Nat) (line : String) :
    (Reply.answer (.ofResult (evaluate limit line))).line = Query.answered limit line := by
  unfold Query.answered
  cases evaluate limit line <;> rfl

theorem line_record (limit : Nat) (q : Query) :
    (Reply.record ⟨q.text, q.time, .ofResult (evaluate limit q.text)⟩).line =
      q.recorded limit := by
  unfold Query.recorded
  cases evaluate limit q.text <;>
    simp only [Reply.line, Record.line, Record.text, Record.seconds, Outcome.ofResult,
      ToString.toString, String.append_assoc]

theorem Keeps.enter (keeps : Keeps limit capacity past s) (time : Nat) (text : String) :
    Keeps limit capacity (past ++ [⟨time, text⟩])
      ⟨s.desk.noted text, s.journal.enter time text (evaluate limit text)⟩ := by
  obtain ⟨sound, rfl, rfl, keys, counted, recorded⟩ := keeps
  refine ⟨sound.noted text, rfl, Desk.capacity_noted s.desk text, ?_, ?_, ?_⟩
  · simpa using Desk.keys_noted keys text
  · rw [Desk.counts_noted, counted, List.length_append, List.length_singleton]
  · simp [Journal.enter, Journal.push, recorded]

/-- One line prints what the queries before it tell, and the session goes with one query more. -/
theorem Keeps.feed (keeps : Keeps limit capacity past s) (time : Nat) (line : String) :
    Prints limit capacity past line ((s.feed time line).replies.map Reply.line) ∧
      Keeps limit capacity (past ++ Query.ofLine time line) (s.feed time line).session := by
  rcases ofLine_cases line with ⟨rfl, request⟩ | ⟨command, request⟩ | ⟨command, request⟩ |
    ⟨query, request⟩
  · have noQuery : Query.ofLine time "" = [] := rfl
    simp only [Session.feed, request, noQuery, List.append_nil]
    exact ⟨.nothing rfl, keeps⟩
  · have noQuery : Query.ofLine time line = [] := if_neg fun query => query.2.1 command
    simp only [Session.feed, request, noQuery, List.append_nil]
    refine ⟨?_, keeps⟩
    have replies : (s.journal.records.toList.map Reply.record).map Reply.line =
        past.map (Query.recorded limit) := by
      simp only [keeps.recorded, List.map_map]
      exact List.map_congr_left fun q _ => line_record limit q
    rw [replies]
    exact .history command
  · have noQuery : Query.ofLine time line = [] := if_neg fun query => query.2.2 command
    simp only [Session.feed, request, noQuery, List.append_nil]
    refine ⟨?_, keeps⟩
    rw [keeps.size_eq]
    exact .stats command keeps.counted
  · have isQuery : Query.ofLine time line = [⟨time, line⟩] := if_pos query
    obtain ⟨result, desk⟩ := keeps.sound.answer_eq line
    -- whatever the memo holds, the answer is that of an evaluation
    rw [keeps.limit_eq] at result
    simp only [Session.feed, request, isQuery, result, desk]
    refine ⟨?_, keeps.enter time line⟩
    rw [List.map_singleton, line_answer]
    exact .query query

/-- Lines that are UTF-8 are taken to the last, and what they print is coherent. -/
theorem Keeps.feedAll (keeps : Keeps limit capacity past s) (clock : Nat → Nat) (number : Nat)
    {lines : List String} {bytes : List (List UInt8)}
    (decoded : bytes.map decode? = lines.map some) :
    (s.feedAll clock number bytes).ending = .complete ∧
      Coherent limit capacity clock number past lines
        (s.feedAll clock number bytes).output := by
  induction lines generalizing s past number bytes with
  | nil =>
    obtain rfl := List.map_eq_nil_iff.mp decoded
    exact ⟨rfl, coherent_nil limit capacity clock number past⟩
  | cons line lines ih =>
    obtain ⟨first, others, rfl, isLine, decoded⟩ := List.map_eq_cons_iff.mp decoded
    obtain ⟨prints, keeps⟩ := keeps.feed (clock number) line
    obtain ⟨ending, coherent⟩ := ih keeps (number + 1) decoded
    have fed : s.feedBytes? (clock number) first = some (s.feed (clock number) line) := by
      have decodes : String.fromUTF8? ⟨first.toArray⟩ = some line := isLine
      rw [feedBytes?, decodes, Option.map_some]
    simp only [Session.feedAll, fed, Transcript.output, List.map_append]
    exact ⟨ending, .cons prints coherent⟩

end Feed

end Session

/-- If room can be reserved for its capacity, a session takes lines of UTF-8 to the last, its output
is coherent, and each entry of it is a single line; otherwise it prints nothing. An empty line
changes nothing. -/
theorem ofInput_coherent (lookup : String → Option String) (clock : Nat → Nat)
    (input : List UInt8) :
    let settings := (Settings.ofVariables lookup).result
    let transcript := Transcript.ofInput lookup clock input
    (settings.capacity.val.toNat ≤ Memo.largestCapacity →
      ∀ lines : List String, (Text.lines input).map decode? = lines.map some →
        transcript.ending = .complete ∧
          Coherent settings.maxDepth.toNat settings.capacity.val.toNat clock 0 [] lines
            transcript.output ∧
          ∀ printed ∈ transcript.output, Unbroken printed) ∧
      (Memo.largestCapacity < settings.capacity.val.toNat → transcript = ⟨[], .noRoom⟩) ∧
      ∀ (s : Session) (time : Nat), s.feed time "" = ⟨s, []⟩ := by
  intro settings transcript
  refine ⟨?_, ?_, fun _ _ => rfl⟩
  · intro room lines decoded
    have begins : Session.ofSettings? settings = some { desk := .ofSettings settings } :=
      if_pos room
    have keeps := Session.Keeps.ofSettings begins
    have told := keeps.feedAll clock 0 decoded
    have unbroken : ∀ line ∈ lines, Unbroken line := by
      intro line member
      have decodes : some line ∈ (Text.lines input).map decode? := by
        rw [decoded]
        exact List.mem_map_of_mem member
      obtain ⟨bytes, inLines, decodes⟩ := List.mem_map.mp decodes
      exact unbroken_of_decode? decodes (Text.lineFeed_not_mem_lines inLines)
    simp only [transcript, Transcript.ofInput]
    rw [begins]
    exact ⟨told.1, told.2, told.2.unbroken unbroken⟩
  · intro crowded
    have none : Session.ofSettings? settings = none := if_neg (Nat.not_le.mpr crowded)
    simp only [transcript, Transcript.ofInput]
    rw [none]

def capacityOnly (text : String) (name : String) : Option String :=
  if name = Settings.capacityVariable then some text else none

/-- With room for one value, `1/2`, an empty line, ` 1` and `1+` make three queries, and the later of
the two that have a value is held. The first is answered. -/
theorem ofInput_coherent_stats :
    let input : List UInt8 :=
      [49, 47, 50, 10, 10, 32, 49, 13, 10, 49, 43, 10, 32, 58, 115, 116, 97, 116, 115]
    let transcript := Transcript.ofInput (capacityOnly "1") (fun _ => 0) input
    (Settings.ofVariables (capacityOnly "1")).result.capacity.val.toNat ≤ Memo.largestCapacity ∧
      (Text.lines input).map decode? = ["1/2", "", " 1", "1+", " :stats"].map some ∧
      transcript.ending = .complete ∧ "= 0.5" ∈ transcript.output ∧
      ∃ hits misses, hits + misses = 3 ∧
        s!"hits: {hits}, misses: {misses}, cached: {1}" ∈ transcript.output := by
  intro input transcript
  have room : (Settings.ofVariables (capacityOnly "1")).result.capacity.val.toNat ≤
      Memo.largestCapacity := by decide +kernel
  have decoded : (Text.lines input).map decode? =
      ["1/2", "", " 1", "1+", " :stats"].map some := by decide +kernel
  obtain ⟨takes, _⟩ := ofInput_coherent (capacityOnly "1") (fun _ => 0) input
  obtain ⟨ending, ⟨pieces, output, _, further⟩, _⟩ := takes room _ decoded
  have inOutput {i : Nat} {piece : List String} (found : pieces[i]? = some piece)
      {printed : String} (member : printed ∈ piece) : printed ∈ transcript.output := by
    rw [output]
    exact List.mem_flatten_of_mem (List.mem_of_getElem? found) member
  obtain ⟨first, foundFirst, answers⟩ := further [] "1/2" ["", " 1", "1+", " :stats"] rfl
  have half : Query.answered (Settings.ofVariables (capacityOnly "1")).result.maxDepth.toNat "1/2" =
      "= 0.5" := by decide +kernel
  have answered := answers.eq_of_isQuery (by decide +kernel)
  rw [half] at answered
  subst answered
  refine ⟨room, decoded, ending, inOutput foundFirst (List.mem_singleton_self _), ?_⟩
  obtain ⟨piece, found, prints⟩ := further ["1/2", "", " 1", "1+"] " :stats" [] rfl
  have command : trimmed " :stats" = ":stats" := by decide +kernel
  have cached : min (Settings.ofVariables (capacityOnly "1")).result.capacity.val.toNat
      (valuedTexts (Settings.ofVariables (capacityOnly "1")).result.maxDepth.toNat
        ([] ++ Query.ofLines (fun _ => 0) 0 ["1/2", "", " 1", "1+"])) = 1 := by decide +kernel
  have counts := @inOutput _ _ found
  cases prints with
  | nothing empty => exact absurd empty (by decide)
  | query isQuery => exact absurd command isQuery.2.2
  | history other =>
    rw [command] at other
    contradiction
  | @stats hits misses _ counted =>
    rw [cached] at counts
    have three : (([] : List Query) ++ Query.ofLines (fun _ => 0) 0
      ["1/2", "", " 1", "1+"]).length = 3 := by decide +kernel
    exact ⟨hits, misses, counted.trans three, counts (List.mem_singleton_self _)⟩

/-- No room can be reserved for `2 ^ 63` values, so that nothing is printed for a query. -/
theorem ofInput_not_coherent_without_room :
    let lookup := capacityOnly "9223372036854775808"
    let settings := (Settings.ofVariables lookup).result
    (Text.lines [49, 10]).map decode? = ["1"].map some ∧
      ¬ Coherent settings.maxDepth.toNat settings.capacity.val.toNat (fun _ => 0) 0 [] ["1"]
        (Transcript.ofInput lookup (fun _ => 0) [49, 10]).output := by
  intro lookup settings
  refine ⟨by decide +kernel, ?_⟩
  have none : Session.ofSettings? settings = none := if_neg (by decide +kernel)
  have silent : (Transcript.ofInput lookup (fun _ => 0) [49, 10]).output = [] := by
    simp only [Transcript.ofInput]
    rw [none]
    rfl
  rw [silent]
  rintro ⟨pieces, empty, _, further⟩
  obtain ⟨piece, found, prints⟩ := further [] "1" [] rfl
  have printsNothing : piece = [] :=
    List.flatten_eq_nil_iff.mp empty.symm piece (List.mem_of_getElem? found)
  have answered := prints.eq_of_isQuery (by decide +kernel)
  rw [printsNothing] at answered
  contradiction

end Reckoner
