import Mathlib.Data.List.DropRight
import Reckoner.Proofs.Desk.Lifetime

namespace Reckoner.Desk

open Recency

/-- What a relation between two desks and the events from the one to the other needs to hold along
every run. -/
structure Along (R : Desk → Desk → List Event → Prop) : Prop where
  nothing : ∀ d, R d d []
  append : ∀ {d e f : Desk} {es fs : List Event}, R d e es → R e f fs → R d f (es ++ fs)
  answer : ∀ {d : Desk}, d.Sound → ∀ text, R d (d.answer text).desk (d.answer text).events

section Along

variable {R : Desk → Desk → List Event → Prop} {d : Desk}

theorem Along.answerAll (along : Along R) (sound : d.Sound) (texts : List String) :
    R d (d.answerAll texts).desk (d.answerAll texts).events := by
  induction texts generalizing d with
  | nil => exact along.nothing d
  | cons text texts ih =>
    exact along.append (along.answer sound text) (ih (sound.answer text))

theorem Along.perform (along : Along R) (sound : d.Sound) (order : Order)
    (cleared : order = .clear → ∀ e, R e e.clear []) :
    R d (d.perform order).desk (d.perform order).events := by
  cases order with
  | clear => exact cleared rfl d
  | stats => exact along.nothing d
  | answer text => exact along.answerAll sound [text]
  | answerAll texts => exact along.answerAll sound texts

theorem Along.run (along : Along R) (sound : d.Sound) (orders : List Order)
    (cleared : .clear ∈ orders → ∀ e, R e e.clear []) :
    R d (d.run orders).desk (d.run orders).events := by
  induction orders generalizing d with
  | nil => exact along.nothing d
  | cons order orders ih =>
    have first := along.perform sound order fun same => cleared (same ▸ List.mem_cons_self)
    have others := ih (sound.perform order) fun member =>
      cleared (List.mem_cons_of_mem order member)
    exact along.append first others

end Along

/-- The counts of the second desk are those of the first with what the events tell of. -/
structure Counted (d e : Desk) (events : List Event) : Prop where
  hits_eq : e.hits = d.hits + linesWith "Cache hit" events
  recalled_eq : e.hits = d.hits + linesWith "Cached result" events
  misses_eq : e.misses = d.misses + linesWith "Tokenizing expression" events

def Balanced (d e : Desk) (events : List Event) : Prop :=
  e.memo.size + linesWith "Cache evicted" events + linesWith "Cache entry expired" events =
    d.memo.size + linesWith "Evaluating AST of depth" events

section Answer

variable {d : Desk} {text : String}

theorem events_of_recalls (recalls : d.Recalls text) :
    ∃ value, (d.answer text).events = [.hit text, .recalled text value] := by
  obtain ⟨lasting, held⟩ := recalls
  obtain ⟨value, _, looked⟩ := Memo.lookup_of_fresh lasting held
  refine ⟨value, ?_⟩
  simp only [answer, looked]
  rfl

def evictions (d : Desk) (text : String) : List (String × Float) :=
  if hasValue d.limit text then (d.memo.without text).drop (d.memo.capacity - 1) else []

theorem events_of_not_recalls (forgets : ¬ d.Recalls text) :
    (d.answer text).events =
      (if text ∈ d.memo.keys then [.expired text] else []) ++
        (evaluateTraced d.limit text).events ++
        (d.evictions text).map fun entry => .evicted entry.1 := by
  have looked : d.memo.lookup text =
      ⟨none, d.memo.forget text, if text ∈ d.memo.keys then [.expired text] else []⟩ := by
    by_cases held : text ∈ d.memo.keys
    · have stale : d.memo.ttl = 0 := by
        by_contra lasting
        exact forgets ⟨lasting, held⟩
      rw [Memo.lookup_of_stale stale held, if_pos held]
    · rw [Memo.lookup_of_absent held, if_neg held, Memo.forget_of_absent held]
  cases evaluated : (evaluateTraced d.limit text).result with
  | error refusal =>
    have refused : hasValue d.limit text = false := by
      rw [hasValue, evaluate, evaluated]
      rfl
    simp [answer, looked, evaluated, evictions, refused]
  | ok value =>
    have valued : hasValue d.limit text = true := by
      rw [hasValue, evaluate, evaluated]
      rfl
    simp only [answer, looked, evaluated, evictions, valued, Memo.insert_forget, ↓reduceIte]
    rfl

theorem told_evaluateTraced (limit : Nat) (text : String) :
    (evaluateTraced limit text).events.filterMap Event.phrase? =
      "Tokenizing expression" ::
        if hasValue limit text then ["Evaluating AST of depth"] else [] := by
  rw [hasValue, evaluate]
  cases scanned : Token.scan text with
  | error fault =>
    rw [evaluateTraced, scanned]
    rfl
  | ok tokens =>
    cases read : Expr.ofTokens limit tokens with
    | error fault =>
      simp only [evaluateTraced, scanned, read]
      rfl
    | ok tree =>
      simp only [evaluateTraced, scanned, read]
      rfl

theorem told_of_recalls (recalls : d.Recalls text) :
    (d.answer text).events.filterMap Event.phrase? = ["Cache hit", "Cached result"] := by
  obtain ⟨value, events⟩ := events_of_recalls recalls
  rw [events]
  rfl

theorem told_of_not_recalls (forgets : ¬ d.Recalls text) :
    (d.answer text).events.filterMap Event.phrase? =
      (if text ∈ d.memo.keys then ["Cache entry expired"] else []) ++
        ("Tokenizing expression" ::
          if hasValue d.limit text then ["Evaluating AST of depth"] else []) ++
        List.replicate (d.evictions text).length "Cache evicted" := by
  have evicted : ((d.evictions text).map fun entry => Event.evicted entry.1).filterMap
      Event.phrase? = List.replicate (d.evictions text).length "Cache evicted" := by
    induction d.evictions text with
    | nil => rfl
    | cons entry entries ih => exact congrArg ("Cache evicted" :: ·) ih
  rw [events_of_not_recalls forgets, List.filterMap_append, List.filterMap_append,
    told_evaluateTraced, evicted]
  congr 2
  split <;> rfl

structure Logs (events : List Event) (hits scans evaluated expired evicted : Nat) : Prop where
  hits_eq : linesWith "Cache hit" events = hits
  recalled_eq : linesWith "Cached result" events = hits
  scans_eq : linesWith "Tokenizing expression" events = scans
  evaluated_eq : linesWith "Evaluating AST of depth" events = evaluated
  expired_eq : linesWith "Cache entry expired" events = expired
  evicted_eq : linesWith "Cache evicted" events = evicted

theorem logs_of_recalls (recalls : d.Recalls text) : Logs (d.answer text).events 1 0 0 0 0 := by
  constructor <;> rw [linesWith_eq_count (by decide), told_of_recalls recalls] <;> decide

theorem logs_of_not_recalls (forgets : ¬ d.Recalls text) :
    Logs (d.answer text).events 0 1 (if hasValue d.limit text then 1 else 0)
      (if text ∈ d.memo.keys then 1 else 0) (d.evictions text).length := by
  constructor <;> rw [linesWith_eq_count (by decide), told_of_not_recalls forgets] <;>
    by_cases held : text ∈ d.memo.keys <;> by_cases valued : hasValue d.limit text <;>
    simp [held, valued, List.count_replicate]

theorem counted_answer (sound : d.Sound) (text : String) :
    Counted d (d.answer text).desk (d.answer text).events := by
  rw [(sound.answer_eq text).2]
  by_cases recalls : d.Recalls text
  · obtain ⟨hits, recalled, scans, _⟩ := logs_of_recalls recalls
    constructor <;> simp only [noted, if_pos recalls, hits, recalled, scans, Nat.add_zero]
  · obtain ⟨hits, recalled, scans, _⟩ := logs_of_not_recalls recalls
    constructor <;> simp only [noted, if_neg recalls, hits, recalled, scans, Nat.add_zero]

theorem Sound.balanced_answer (sound : d.Sound) (text : String) :
    Balanced d (d.answer text).desk (d.answer text).events := by
  have fits : d.memo.size ≤ d.memo.capacity := d.memo.fits
  have others := d.memo.length_without text
  have positive := d.memo.capacity_pos
  rw [Balanced, (sound.answer_eq text).2]
  by_cases recalls : d.Recalls text
  · obtain ⟨_, _, _, evaluated, expired, evicted⟩ := logs_of_recalls recalls
    obtain ⟨value, stored⟩ := memo_noted_of_valued (sound.hasValue_of_held recalls.2)
    rw [stored, Memo.size_insert, evaluated, expired, evicted]
    rw [if_pos recalls.2] at others
    omega
  · obtain ⟨_, _, _, evaluated, expired, evicted⟩ := logs_of_not_recalls recalls
    by_cases valued : hasValue d.limit text
    · obtain ⟨value, stored⟩ := memo_noted_of_valued valued
      rw [stored, Memo.size_insert, evaluated, expired, evicted, evictions, if_pos valued,
        if_pos valued, List.length_drop]
      omega
    · have absent : text ∉ d.memo.keys := fun held => valued (sound.hasValue_of_held held)
      rw [memo_noted_of_refused (Bool.eq_false_iff.mpr valued), evaluated, expired, evicted,
        evictions, if_neg valued, if_neg valued, if_neg absent]
      rfl

end Answer

theorem along_counted : Along Counted where
  nothing _ := ⟨rfl, rfl, rfl⟩
  append first others := by
    constructor <;> rw [linesWith_append, ← Nat.add_assoc]
    · rw [← first.hits_eq, others.hits_eq]
    · rw [← first.recalled_eq, others.recalled_eq]
    · rw [← first.misses_eq, others.misses_eq]
  answer sound text := counted_answer sound text

theorem along_balanced : Along Balanced where
  nothing _ := by simp only [Balanced, linesWith, List.countP_nil]
  append first others := by
    simp only [Balanced, linesWith_append] at first others ⊢
    omega
  answer sound text := sound.balanced_answer text

theorem along_ttl : Along fun d e _ => e.memo.ttl = d.memo.ttl where
  nothing _ := rfl
  append first others := others.trans first
  answer sound text := by rw [(sound.answer_eq text).2, ttl_noted]

theorem stale_run_iff (s : Settings) (orders : List Order) :
    ((ofSettings s).run orders).desk.memo.ttl = 0 ↔ s.ttl = 0 := by
  rw [along_ttl.run (.ofSettings s) orders fun _ _ => rfl]
  show s.ttl.toNat = (0 : UInt64).toNat ↔ _
  exact UInt64.toNat_inj

/-- Something has to leave only where the memo is full, and that is its last entry. -/
theorem Sound.evicted {d : Desk} (sound : d.Sound) {text : String} {entry : String × Float}
    (member : entry ∈ d.evictions text) :
    text ∉ d.memo.keys ∧ ∃ front, d.memo.keys = front ++ [entry.1] ∧
      (d.answer text).desk.memo.keys = text :: front := by
  unfold evictions at member
  split at member
  · next valued =>
    have fits : d.memo.size ≤ d.memo.capacity := d.memo.fits
    have others := d.memo.length_without text
    have positive := d.memo.capacity_pos
    have full := List.length_pos_of_mem member
    rw [List.length_drop] at full
    have absent : text ∉ d.memo.keys := by
      intro held
      rw [if_pos held] at others
      omega
    rw [if_neg absent] at others
    rw [Memo.without_of_absent absent] at member others full
    have one : (d.memo.entries.drop (d.memo.capacity - 1)).length = 1 := by
      rw [List.length_drop]
      omega
    obtain ⟨last, alone⟩ := List.length_eq_one_iff.mp one
    rw [alone, List.mem_singleton] at member
    subst member
    refine ⟨absent, (d.memo.entries.take (d.memo.capacity - 1)).map Prod.fst, ?_, ?_⟩
    · rw [Memo.keys, ← List.map_singleton, ← alone, ← List.map_append, List.take_append_drop]
    · obtain ⟨value, stored⟩ := memo_noted_of_valued valued
      rw [(sound.answer_eq text).2, stored, Memo.keys, Memo.entries_insert, List.map_cons,
        Memo.without_of_absent absent]
  · contradiction

/-- What an evaluation logs is about no entry of a memo. -/
theorem phrase?_of_mem_evaluateTraced {limit : Nat} {text phrase : String} {e : Event}
    (member : e ∈ (evaluateTraced limit text).events) (told : e.phrase? = some phrase) :
    phrase = "Tokenizing expression" ∨ phrase = "Evaluating AST of depth" := by
  have inside : phrase ∈ (evaluateTraced limit text).events.filterMap Event.phrase? :=
    List.mem_filterMap.mpr ⟨e, member, told⟩
  rw [told_evaluateTraced] at inside
  rcases List.mem_cons.mp inside with same | inside
  · exact .inl same
  · split at inside
    · exact .inr (List.mem_singleton.mp inside)
    · contradiction

theorem evicted_of_opensWith {d : Desk} {text : String} {e : Event}
    (member : e ∈ (d.answer text).events) (opens : e.OpensWith "Cache evicted") :
    ∃ entry ∈ d.evictions text, e = .evicted entry.1 := by
  have told := (Event.opensWith_iff (by decide) e).mp opens
  by_cases recalls : d.Recalls text
  · have inside := List.mem_filterMap.mpr ⟨e, member, told⟩
    rw [told_of_recalls recalls] at inside
    contradiction
  · rw [events_of_not_recalls recalls, List.append_assoc] at member
    rcases List.mem_append.mp member with member | member
    · split at member
      · rw [List.mem_singleton.mp member, Event.phrase?] at told
        contradiction
      · contradiction
    · rcases List.mem_append.mp member with member | member
      · rcases phrase?_of_mem_evaluateTraced member told with same | same <;> contradiction
      · obtain ⟨entry, evicted, rfl⟩ := List.mem_map.mp member
        exact ⟨entry, evicted, rfl⟩

theorem filter_expired (d : Desk) (text : String) :
    (d.answer text).events.filter (fun e => e.OpensWith "Cache entry expired") =
      if d.memo.ttl = 0 ∧ text ∈ d.memo.keys then [.expired text] else [] := by
  have expires (e : Event) :
      e.OpensWith "Cache entry expired" ↔ e.phrase? = some "Cache entry expired" :=
    Event.opensWith_iff (by decide) e
  by_cases recalls : d.Recalls text
  · obtain ⟨value, events⟩ := events_of_recalls recalls
    have lasting : ¬ (d.memo.ttl = 0 ∧ text ∈ d.memo.keys) := fun stale => recalls.1 stale.1
    rw [events, if_neg lasting]
    simp [expires, Event.phrase?]
  · have evaluated : (evaluateTraced d.limit text).events.filter
        (fun e => e.OpensWith "Cache entry expired") = [] := by
      apply List.filter_eq_nil_iff.mpr
      intro e member opens
      have told := (expires e).mp (of_decide_eq_true opens)
      rcases phrase?_of_mem_evaluateTraced member told with same | same <;> contradiction
    have evicted : ((d.evictions text).map fun entry => Event.evicted entry.1).filter
        (fun e => e.OpensWith "Cache entry expired") = [] := by
      apply List.filter_eq_nil_iff.mpr
      intro e member opens
      obtain ⟨entry, _, rfl⟩ := List.mem_map.mp member
      have told := (expires _).mp (of_decide_eq_true opens)
      rw [Event.phrase?] at told
      contradiction
    rw [events_of_not_recalls recalls, List.filter_append, List.filter_append, evaluated, evicted]
    by_cases held : text ∈ d.memo.keys
    · have stale : d.memo.ttl = 0 := by
        by_contra lasting
        exact recalls ⟨lasting, held⟩
      simp [expires, Event.phrase?, held, stale]
    · simp [expires, Event.phrase?, held]

theorem eviction_of_run (s : Settings) (orders : List Order) {text : String} {e : Event} :
    let desk := ((ofSettings s).run orders).desk
    e ∈ (desk.answer text).events → e.OpensWith "Cache evicted" → ∃ key, e = .evicted key ∧
      e.text = "Cache evicted least recently used: " ++ Text.quoted key ∧
      key ≠ text ∧ IsOldest (asked orders) desk.memo.keys key ∧
      key ∉ (desk.answer text).desk.memo.keys := by
  intro desk member opens
  have sound : desk.Sound := (Sound.ofSettings s).run orders
  obtain ⟨entry, evicted, rfl⟩ := evicted_of_opensWith member opens
  obtain ⟨absent, front, keys, after⟩ := sound.evicted evicted
  have oldest := isOldest_of_recent ((keys_run s orders).symm.trans keys)
  have distinct := desk.memo.nodup_keys
  rw [keys] at absent distinct
  have other : entry.1 ≠ text := by
    intro same
    exact absent (by simp [same])
  refine ⟨entry.1, rfl, rfl, other, keys ▸ oldest, ?_⟩
  rw [after]
  intro held
  rcases List.mem_cons.mp held with same | held
  · exact other same
  · exact List.disjoint_of_nodup_append distinct held (List.mem_singleton_self _)

def eventsSinceClear (d : Desk) (orders : List Order) : List Event :=
  ((d.run (orders.rdropWhile (· ≠ .clear))).desk.run (orders.rtakeWhile (· ≠ .clear))).events

theorem run_eq_since (d : Desk) (orders : List Order) :
    (d.run orders).desk = ((d.run (orders.rdropWhile (· ≠ .clear))).desk.run
        (orders.rtakeWhile (· ≠ .clear))).desk ∧
      eventsSinceClear d orders <:+ (d.run orders).events := by
  have split := run_append d (orders.rdropWhile (· ≠ .clear)) (orders.rtakeWhile (· ≠ .clear))
  rw [List.rdropWhile_append_rtakeWhile] at split
  rw [split]
  exact ⟨rfl, List.suffix_append _ _⟩

theorem size_of_cleared (s : Settings) (orders : List Order) :
    ((ofSettings s).run (orders.rdropWhile (· ≠ .clear))).desk.memo.size = 0 := by
  rcases List.eq_nil_or_concat (orders.rdropWhile (· ≠ .clear)) with none | ⟨before, last, split⟩
  · rw [none]
    rfl
  · rw [List.concat_eq_append] at split
    have nonempty : orders.rdropWhile (· ≠ .clear) ≠ [] := by
      rw [split]
      exact List.concat_ne_nil last before
    have cleared : last = .clear := by
      have stopped := List.rdropWhile_last_not _ _ nonempty
      simp only [split, List.getLast_append_singleton] at stopped
      simpa using stopped
    rw [split, cleared, run_append]
    rfl

/-- The values held are those computed since the last clearing that have not left. -/
theorem size_run (s : Settings) (orders : List Order) :
    let since := eventsSinceClear (ofSettings s) orders
    ((ofSettings s).run orders).desk.memo.size + linesWith "Cache evicted" since +
        linesWith "Cache entry expired" since =
      linesWith "Evaluating AST of depth" since := by
  have noClear : .clear ∉ orders.rtakeWhile (· ≠ .clear) := by
    intro member
    simpa using List.mem_rtakeWhile_imp member
  have start := (Sound.ofSettings s).run (orders.rdropWhile (· ≠ .clear))
  have balanced := along_balanced.run start _ fun member => absurd member noClear
  rwa [Balanced, size_of_cleared, Nat.zero_add, ← (run_eq_since _ orders).1] at balanced

/-- The log accounts for a desk: hits and misses are the lines that tell of them, and the memo holds
what was computed since the last clearing less what was evicted or had expired. What is evicted was
asked for longest ago among what was held, and is not held any more; what expires is the text that is
asked for, if it was held and values are stale at once. Either line quotes the key or the text after
its words, and what it quotes cannot be taken for anything else. -/
theorem log_accounts (s : Settings) (orders : List Order) :
    let run := (ofSettings s).run orders
    let since := eventsSinceClear (ofSettings s) orders
    (run.desk.hits = linesWith "Cache hit" run.events ∧
        run.desk.hits = linesWith "Cached result" run.events ∧
        run.desk.misses = linesWith "Tokenizing expression" run.events) ∧
      (since <:+ run.events ∧
        run.desk.memo.size + linesWith "Cache evicted" since +
            linesWith "Cache entry expired" since =
          linesWith "Evaluating AST of depth" since) ∧
      run = (ofSettings s).run (orders.flatMap Order.singly) ∧
      (∀ text,
        let answer := run.desk.answer text
        (∀ e ∈ answer.events, e.OpensWith "Cache evicted" → ∃ key, e = .evicted key ∧
            e.text = "Cache evicted least recently used: " ++ Text.quoted key ∧
            key ≠ text ∧ IsOldest (asked orders) run.desk.memo.keys key ∧
            key ∉ answer.desk.memo.keys) ∧
          answer.events.filter (fun e => e.OpensWith "Cache entry expired") =
            (if s.ttl = 0 ∧ text ∈ run.desk.memo.keys then [.expired text] else []) ∧
          (Event.expired text).text = "Cache entry expired: " ++ Text.quoted text) ∧
      ∀ key rest other more : String,
        Text.quoted key ++ rest = Text.quoted other ++ more → key = other ∧ rest = more := by
  intro run since
  have counted := along_counted.run (.ofSettings s) orders fun _ _ => ⟨rfl, rfl, rfl⟩
  refine ⟨⟨?_, ?_, ?_⟩, ⟨(run_eq_since _ orders).2, size_run s orders⟩,
    (run_flatMap_singly _ _).symm, ?_, fun _ _ _ _ => Text.quoted_append_inj⟩
  · exact counted.hits_eq.trans (Nat.zero_add _)
  · exact counted.recalled_eq.trans (Nat.zero_add _)
  · exact counted.misses_eq.trans (Nat.zero_add _)
  · intro text answer
    refine ⟨fun e => eviction_of_run s orders, ?_, rfl⟩
    have stale := stale_run_iff s orders
    rw [filter_expired]
    simp only [run, stale]

/-- With room for one value that is stale at once, `1` expires when it is asked for again, and leaves
when `2` is asked for. -/
theorem log_accounts_for_one :
    let s : Settings := { capacity := ⟨1, by decide⟩, ttl := 0 }
    let orders : List Order := [.answer "2", .clear, .answerAll ["1", "("]]
    let run := (ofSettings s).run orders
    linesWith "Tokenizing expression" run.events = 3 ∧
      (run.desk.answer "1").events.filter (fun e => e.OpensWith "Cache entry expired") =
        [.expired "1"] ∧
      (Event.expired "1").text = "Cache entry expired: \"1\"" ∧
      .evicted "1" ∈ (run.desk.answer "2").events ∧
      (Event.evicted "1").OpensWith "Cache evicted" ∧
      (Event.evicted "1").text = "Cache evicted least recently used: \"1\"" ∧
      IsOldest (asked orders) run.desk.memo.keys "1" ∧
      "1" ∉ (run.desk.answer "2").desk.memo.keys := by
  intro s orders run
  obtain ⟨⟨_, _, misses⟩, _, _, each, _⟩ := log_accounts s orders
  have three : run.desk.misses = 3 := by decide +kernel
  have held : s.ttl = 0 ∧ "1" ∈ run.desk.memo.keys := by decide +kernel
  have member : .evicted "1" ∈ (run.desk.answer "2").events := by decide +kernel
  have opens : (Event.evicted "1").OpensWith "Cache evicted" := by decide +kernel
  have quoted : Text.quoted "1" = "\"1\"" := by decide +kernel
  obtain ⟨_, expires, expired⟩ := each "1"
  obtain ⟨key, same, evicted, _, oldest, gone⟩ := (each "2").1 _ member opens
  cases same
  rw [quoted] at expired evicted
  exact ⟨misses.symm.trans three, expires.trans (if_pos held), expired, member, opens, evicted,
    oldest, gone⟩

end Reckoner.Desk
