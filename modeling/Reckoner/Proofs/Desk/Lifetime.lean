import Reckoner.Proofs.Desk.HitLaw

namespace Reckoner.Desk

open Recency

/-- The values of the first desk are stale at once; but for the times to live and for how the
answers are counted, the desks are the same. -/
structure Twins (d e : Desk) : Prop where
  stale : d.memo.ttl = 0
  never : d.hits = 0
  entries_eq : d.memo.entries = e.memo.entries
  capacity_eq : d.memo.capacity = e.memo.capacity
  limit_eq : d.limit = e.limit
  counts_eq : d.hits + d.misses = e.hits + e.misses

namespace Twins

variable {d e : Desk}

theorem ofSettings (s : Settings) (ttl : UInt64) :
    Twins (Desk.ofSettings { s with ttl := 0 }) (Desk.ofSettings { s with ttl := ttl }) :=
  ⟨rfl, rfl, rfl, rfl, rfl, rfl⟩

theorem entries_insert (twins : Twins d e) (key : String) (value : Float) :
    (d.memo.insert key value).result.entries = (e.memo.insert key value).result.entries := by
  rw [Memo.entries_insert, Memo.entries_insert, Memo.without, Memo.without, twins.entries_eq,
    twins.capacity_eq]

theorem noted (twins : Twins d e) (text : String) : Twins (d.noted text) (e.noted text) := by
  have forgets : ¬ d.Recalls text := fun recalls => recalls.1 twins.stale
  have entries : (d.noted text).memo.entries = (e.noted text).memo.entries := by
    simp only [Desk.noted, twins.limit_eq]
    cases evaluate e.limit text with
    | error refusal => exact twins.entries_eq
    | ok value => exact twins.entries_insert text value
  refine ⟨?_, ?_, entries, ?_, twins.limit_eq, ?_⟩
  · rw [ttl_noted, twins.stale]
  · rw [Desk.noted, if_neg forgets, twins.never]
  · rw [capacity_noted, capacity_noted, twins.capacity_eq]
  · rw [counts_noted, counts_noted, twins.counts_eq]

theorem foldl_noted (twins : Twins d e) (texts : List String) :
    Twins (texts.foldl Desk.noted d) (texts.foldl Desk.noted e) := by
  induction texts generalizing d e with
  | nil => exact twins
  | cons text texts ih => exact ih (twins.noted text)

theorem performed (twins : Twins d e) (order : Order) :
    Twins (d.performed order) (e.performed order) := by
  cases order with
  | clear =>
    exact ⟨twins.stale, twins.never, rfl, twins.capacity_eq, twins.limit_eq, twins.counts_eq⟩
  | answer | answerAll | stats => exact twins.foldl_noted _

theorem foldl_performed (twins : Twins d e) (orders : List Order) :
    Twins (orders.foldl Desk.performed d) (orders.foldl Desk.performed e) := by
  induction orders generalizing d e with
  | nil => exact twins
  | cons order orders ih => exact ih (twins.performed order)

/-- What leaves to make room depends on the entries and the capacity alone. -/
theorem events_insert (twins : Twins d e) (key : String) (value : Float) :
    (d.memo.insert key value).events = (e.memo.insert key value).events := by
  simp only [Memo.insert, Memo.without, twins.entries_eq, twins.capacity_eq]

end Twins

/-- Whatever the time to live, the memo holds the texts with a value that were asked for last. -/
theorem keys_run (s : Settings) (orders : List Order) :
    ((ofSettings s).run orders).desk.memo.keys =
      recent s.capacity.val.toNat ((asked orders).filter (hasValue s.maxDepth.toNat)) := by
  by_cases stale : s.ttl = 0
  · have twins : Twins (((ofSettings { s with ttl := 0 }).run orders).desk)
        (((ofSettings { s with ttl := 1 }).run orders).desk) := by
      rw [((Sound.ofSettings _).run_eq orders).2, ((Sound.ofSettings _).run_eq orders).2]
      exact (Twins.ofSettings s 1).foldl_performed orders
    have lasts : (1 : UInt64) ≠ 0 := by decide
    have follows := Follows.run { s with ttl := 1 } lasts orders
    have same : { s with ttl := 0 } = s := by rw [← stale]
    rw [same] at twins
    rw [Memo.keys, twins.entries_eq]
    exact follows.keys_eq
  · exact (Follows.run s stale orders).keys_eq

/-- After the same orders, a desk whose values are stale at once has given the same answers as one
with any other time to live. It holds the same entries in the same order, so that the same one is
the next to leave, and has counted as many answers, though none of them as a hit. -/
theorem run_stale_eq_lasting (s : Settings) (ttl : UInt64) (orders : List Order) :
    let stale := (ofSettings { s with ttl := 0 }).run orders
    let lasting := (ofSettings { s with ttl := ttl }).run orders
    stale.results = lasting.results ∧
      stale.desk.memo.entries = lasting.desk.memo.entries ∧
      stale.desk.memo.size = lasting.desk.memo.size ∧
      (∀ key value, (stale.desk.memo.insert key value).events =
        (lasting.desk.memo.insert key value).events) ∧
      stale.desk.hits + stale.desk.misses = lasting.desk.hits + lasting.desk.misses ∧
      stale.desk.hits = 0 := by
  intro stale lasting
  obtain ⟨resultsStale, finalStale⟩ := (Sound.ofSettings { s with ttl := 0 }).run_eq orders
  obtain ⟨results, final⟩ := (Sound.ofSettings { s with ttl := ttl }).run_eq orders
  have twins : Twins stale.desk lasting.desk := by
    rw [finalStale, final]
    exact (Twins.ofSettings s ttl).foldl_performed orders
  refine ⟨?_, twins.entries_eq, ?_, twins.events_insert, twins.counts_eq, twins.never⟩
  · rw [resultsStale, results]
    rfl
  · rw [Memo.size, Memo.size, twins.entries_eq]

example :
    let counts (ttl : UInt64) :=
      let desk := ((ofSettings { ttl }).run [.answerAll ["1", "("], .answer "1"]).desk
      (desk.hits, desk.misses)
    counts 0 = (0, 3) ∧ counts 60 = (1, 2) := by
  decide +kernel

end Reckoner.Desk
