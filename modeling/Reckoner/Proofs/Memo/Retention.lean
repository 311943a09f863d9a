import Reckoner.Proofs.Memo.Contents
import Reckoner.Proofs.Memo.Recency

namespace Reckoner.Memo

open Recency

def sinceClear (uses : List Use) : List Use :=
  uses.reverse.takeWhile (· ≠ .clear)

def Use.stored? : Use → Option (String × Float)
  | .insert key value => some (key, value)
  | .lookup _ | .clear => none

def stored (uses : List Use) : List (String × Float) :=
  (sinceClear uses).filterMap Use.stored?

def Use.touch (m : Memo) (trace : List String) : Use → List String
  | .insert key _ => key :: trace
  | .lookup key => if (m.lookup key).found.isSome then key :: trace else trace
  | .clear => []

def touchedFrom (m : Memo) (trace : List String) : List Use → List String
  | [] => trace
  | use :: uses => (m.afterUse use).touchedFrom (use.touch m trace) uses

def touched (m : Memo) (uses : List Use) : List String :=
  m.touchedFrom [] uses

/-- A key that is stored comes to the front, and only the last of the others may have to leave. -/
theorem keys_insert_of_recent {m : Memo} {trace : List String}
    (keys : m.keys = recent m.capacity trace) (key : String) (value : Float) :
    (m.insert key value).result.keys = recent m.capacity (key :: trace) := by
  rw [keys_insert, keys, recent_cons m.capacity_pos]

theorem stored_insert (past : List Use) (key : String) (value : Float) :
    stored (past ++ [.insert key value]) = (key, value) :: stored past := by
  simp [stored, sinceClear, Use.stored?]

theorem stored_lookup (past : List Use) (key : String) :
    stored (past ++ [.lookup key]) = stored past := by
  rw [stored, sinceClear, List.reverse_concat, List.takeWhile_cons_of_pos (by simp)]
  exact List.filterMap_cons_none rfl

theorem stored_clear (past : List Use) : stored (past ++ [.clear]) = [] := by
  simp [stored, sinceClear]

/-- The memo has been used as told since it was empty, and the keys of the trace were touched after
the last clearing. -/
structure Retains (c : Nat) (past : List Use) (trace : List String) (m : Memo) : Prop where
  capacity_eq : m.capacity = c
  lasting : m.ttl ≠ 0
  keys_eq : m.keys = recent c trace
  latest : ∀ entry ∈ m.entries, (stored past).lookup entry.1 = some entry.2
  mem_trace : ∀ key, key ∈ trace ↔ key ∈ (stored past).map Prod.fst

namespace Retains

variable {c : Nat} {past : List Use} {trace : List String} {m : Memo}

theorem ofEmpty (c ttl : Nat) (room : 0 < c) (lasting : ttl ≠ 0) :
    Retains c [] [] (empty c ttl room) := by
  refine ⟨rfl, lasting, (recent_nil c).symm, ?_, ?_⟩
  · intro entry member
    cases member
  · intro key
    exact Iff.rfl

theorem keys_insert (retains : Retains c past trace m) (key : String) (value : Float) :
    (m.insert key value).result.keys = recent c (key :: trace) := by
  have keys := retains.keys_eq
  rw [← retains.capacity_eq] at keys ⊢
  exact keys_insert_of_recent keys key value

theorem insert (retains : Retains c past trace m) (key : String) (value : Float) :
    Retains c (past ++ [.insert key value]) (key :: trace) (m.insert key value).result := by
  refine ⟨retains.capacity_eq, retains.lasting, retains.keys_insert key value, ?_, ?_⟩
  · intro entry member
    rw [stored_insert]
    rw [entries_insert] at member
    rcases List.mem_cons.mp member with rfl | member
    · exact List.lookup_cons_self
    · obtain ⟨member, other⟩ := List.mem_filter.mp (List.mem_of_mem_take member)
      have different : (entry.1 == key) = false := by simpa using other
      rw [List.lookup_cons, different]
      exact retains.latest entry member
  · intro other
    rw [stored_insert, List.map_cons, List.mem_cons, List.mem_cons, retains.mem_trace]

theorem lookup_held (retains : Retains c past trace m) {key : String} (held : key ∈ m.keys) :
    Retains c (past ++ [.lookup key]) (key :: trace) (m.lookup key).memo := by
  obtain ⟨value, member, looked⟩ := lookup_of_fresh retains.lasting held
  -- what is found is put back in front, as if it had been stored again
  have again : (m.lookup key).memo = (m.insert key value).result := by
    rw [looked, promote_eq_insert]
  have known : key ∈ trace := by
    rw [retains.keys_eq] at held
    exact ((mem_recent_iff c key trace).mp held).1
  rw [again]
  refine ⟨retains.capacity_eq, retains.lasting, retains.keys_insert key value, ?_, ?_⟩
  · intro entry stays
    rw [stored_lookup]
    rcases mem_entries_insert stays with rfl | stays
    · exact retains.latest (key, value) member
    · exact retains.latest entry stays
  · intro other
    rw [stored_lookup, ← retains.mem_trace, List.mem_cons]
    constructor
    · rintro (rfl | used)
      · exact known
      · exact used
    · exact Or.inr

theorem lookup_absent (retains : Retains c past trace m) {key : String} (absent : key ∉ m.keys) :
    Retains c (past ++ [.lookup key]) trace (m.lookup key).memo := by
  rw [lookup_of_absent absent]
  refine ⟨retains.capacity_eq, retains.lasting, retains.keys_eq, ?_, ?_⟩
  · rw [stored_lookup]
    exact retains.latest
  · rw [stored_lookup]
    exact retains.mem_trace

theorem lookup (retains : Retains c past trace m) (key : String) :
    Retains c (past ++ [.lookup key]) (Use.touch m trace (.lookup key)) (m.lookup key).memo := by
  by_cases held : key ∈ m.keys
  · obtain ⟨value, _, looked⟩ := lookup_of_fresh retains.lasting held
    have touches : Use.touch m trace (.lookup key) = key :: trace := by
      simp [Use.touch, looked]
    rw [touches]
    exact retains.lookup_held held
  · have touches : Use.touch m trace (.lookup key) = trace := by
      simp [Use.touch, lookup_of_absent held]
    rw [touches]
    exact retains.lookup_absent held

theorem clear (retains : Retains c past trace m) :
    Retains c (past ++ [.clear]) [] m.clear := by
  refine ⟨retains.capacity_eq, retains.lasting, (recent_nil c).symm, ?_, ?_⟩
  · intro entry member
    cases member
  · intro key
    rw [stored_clear, List.map_nil]

theorem afterUse (retains : Retains c past trace m) (use : Use) :
    Retains c (past ++ [use]) (use.touch m trace) (m.afterUse use) := by
  cases use with
  | insert key value => exact retains.insert key value
  | lookup key => exact retains.lookup key
  | clear => exact retains.clear

theorem after (retains : Retains c past trace m) (uses : List Use) :
    Retains c (past ++ uses) (m.touchedFrom trace uses) (m.after uses) := by
  induction uses generalizing past trace m with
  | nil => rwa [List.append_nil]
  | cons use uses ih =>
    rw [← List.singleton_append, ← List.append_assoc]
    exact ih (retains.afterUse use)

theorem found_iff (retains : Retains c past trace m) (key : String) (value : Float) :
    (m.lookup key).found = some value ↔
      (stored past).lookup key = some value ∧ (trace.takeWhile (· ≠ key)).toFinset.card < c := by
  constructor
  · intro found
    have member := (fresh_of_found found).2
    have held := keys_of_mem member
    rw [retains.keys_eq] at held
    exact ⟨retains.latest (key, value) member, ((mem_recent_iff c key trace).mp held).2⟩
  · rintro ⟨found, close⟩
    have known : key ∈ (stored past).map Prod.fst := by
      obtain ⟨before, after, split, _⟩ := List.lookup_eq_some_iff.mp found
      simp [split]
    have held : key ∈ recent c trace :=
      (mem_recent_iff c key trace).mpr ⟨(retains.mem_trace key).mpr known, close⟩
    rw [← retains.keys_eq] at held
    obtain ⟨actual, member, looked⟩ := lookup_of_fresh retains.lasting held
    rw [looked, ← found]
    exact (retains.latest (key, actual) member).symm

theorem size_eq (retains : Retains c past trace m) :
    m.size = min c ((stored past).map Prod.fst).toFinset.card := by
  have same : trace.toFinset = ((stored past).map Prod.fst).toFinset := by
    ext key
    rw [List.mem_toFinset, List.mem_toFinset, retains.mem_trace]
  rw [← length_keys, retains.keys_eq, length_recent, same]

end Retains

/-- With a time to live, a lookup finds the value stored last under its key after the last clearing
as long as fewer other keys than the memo has room for were touched since the key was. Where it
finds nothing, it changes nothing. The memo fills up to its capacity. -/
theorem found_iff_touched_recently (c ttl : Nat) (room : 0 < c) (lasting : ttl ≠ 0)
    (uses : List Use) :
    let m := (empty c ttl room).after uses
    let trace := (empty c ttl room).touched uses
    (∀ key value, (m.lookup key).found = some value ↔
        (stored uses).lookup key = some value ∧
          (trace.takeWhile (· ≠ key)).toFinset.card < c) ∧
      (∀ key, (m.lookup key).found = none → m.lookup key = ⟨none, m, []⟩) ∧
      m.size = min c ((stored uses).map Prod.fst).toFinset.card := by
  intro m trace
  have retains : Retains c uses trace m := (Retains.ofEmpty c ttl room lasting).after uses
  refine ⟨retains.found_iff, ?_, retains.size_eq⟩
  intro key missing
  by_cases held : key ∈ m.keys
  · obtain ⟨value, _, looked⟩ := lookup_of_fresh retains.lasting held
    rw [looked] at missing
    cases missing
  · exact lookup_of_absent held

/-- With room for two, the key found before a third one comes stays and the other leaves. -/
theorem found_with_room_for_two :
    let uses : List Use := [.insert "a" 1, .insert "b" 2, .lookup "a", .lookup "z", .insert "c" 3]
    let m := (empty 2 60 (by decide)).after uses
    (0 < 2 ∧ 60 ≠ 0) ∧ (m.lookup "a").found = some 1 ∧ (m.lookup "b").found = none := by
  intro uses m
  have lasting : 60 ≠ 0 := by decide
  obtain ⟨found, _, _⟩ := found_iff_touched_recently 2 60 (by decide) lasting uses
  refine ⟨⟨by decide, lasting⟩, ?_, ?_⟩
  · exact (found "a" 1).mpr (by decide +kernel)
  · apply Option.eq_none_iff_forall_ne_some.mpr
    intro value present
    have close := ((found "b" value).mp present).2
    exact absurd close (by decide +kernel)

end Reckoner.Memo
