import Reckoner.Event

namespace Reckoner

/-- Values by the exact text they were computed from. -/
structure Memo where
  capacity : Nat
  /-- The time to live in seconds. Values stay fresh unless it is zero: then a value is stale as
  soon as it is stored. -/
  ttl : Nat
  /-- Keys with their values, the most recently used first. -/
  entries : List (String × Float)
  capacity_pos : 0 < capacity
  distinct : (entries.map Prod.fst).Nodup
  fits : entries.length ≤ capacity

structure Memo.Lookup where
  found : Option Float
  memo : Memo
  events : List Event

namespace Memo

/-- The largest capacity that room can be reserved for. The room is a table whose slots are a power
of two in number and filled to seven eighths at most. A slot takes 17 bytes and the table less than
`2 ^ 63`, so it has no more than `2 ^ 58` slots. -/
def largestCapacity : Nat := 7 * 2 ^ (55 : Nat)

def empty (capacity ttl : Nat) (capacity_pos : 0 < capacity) : Memo where
  capacity := capacity
  ttl := ttl
  entries := []
  capacity_pos := capacity_pos
  distinct := List.nodup_nil
  fits := Nat.zero_le capacity

def size (m : Memo) : Nat :=
  m.entries.length

def isEmpty (m : Memo) : Bool :=
  m.entries.isEmpty

def keys (m : Memo) : List String :=
  m.entries.map Prod.fst

theorem nodup_keys (m : Memo) : m.keys.Nodup :=
  m.distinct

def without (m : Memo) (key : String) : List (String × Float) :=
  m.entries.filter fun entry => entry.1 ≠ key

theorem keys_without (m : Memo) (key : String) :
    (m.without key).map Prod.fst = m.keys.filter (· ≠ key) := by
  rw [keys, List.filter_map]
  rfl

theorem distinct_without (m : Memo) (key : String) : ((m.without key).map Prod.fst).Nodup :=
  (List.filter_sublist.map Prod.fst).nodup m.distinct

theorem distinct_front (m : Memo) (key : String) (value : Float) :
    (((key, value) :: m.without key).map Prod.fst).Nodup := by
  refine List.nodup_cons.mpr ⟨?_, m.distinct_without key⟩
  rw [keys_without]
  intro member
  exact absurd rfl (of_decide_eq_true (List.mem_filter.mp member).2)

theorem length_without_lt {m : Memo} {entry : String × Float} (member : entry ∈ m.entries) :
    (m.without entry.1).length < m.entries.length :=
  List.length_filter_lt_length_iff_exists.mpr ⟨entry, member, by simp⟩

def forget (m : Memo) (key : String) : Memo :=
  { m with
    entries := m.without key
    distinct := m.distinct_without key
    fits := Nat.le_trans (List.length_filter_le _ _) m.fits }

def promote (m : Memo) (entry : String × Float) (member : entry ∈ m.entries) : Memo :=
  { m with
    entries := entry :: m.without entry.1
    distinct := m.distinct_front entry.1 entry.2
    fits := Nat.lt_of_lt_of_le (length_without_lt member) m.fits }

theorem mem_of_lookup {entries : List (String × Float)} {key : String} {value : Float}
    (found : entries.lookup key = some value) : (key, value) ∈ entries := by
  obtain ⟨before, after, split, _⟩ := List.lookup_eq_some_iff.mp found
  simp [split]

/-- A fresh value makes its key the most recently used one; a stale value is dropped. -/
def lookup (m : Memo) (key : String) : Lookup :=
  match found : m.entries.lookup key with
  | none => ⟨none, m, []⟩
  | some value =>
    if m.ttl = 0 then ⟨none, m.forget key, [.expired key]⟩
    else ⟨some value, m.promote (key, value) (mem_of_lookup found), [.hit key]⟩

/-- Stores a value as the most recently used one, in the place of an older one under the same key.
Where that is one entry too many, the least recently used one leaves. -/
def insert (m : Memo) (key : String) (value : Float) : Traced Memo :=
  let others := m.without key
  let kept := others.take (m.capacity - 1)
  let dropped := others.drop (m.capacity - 1)
  { result :=
      { m with
        entries := (key, value) :: kept
        distinct :=
          (((List.take_sublist _ _).cons_cons _).map Prod.fst).nodup (m.distinct_front key value)
        fits := by
          have positive := m.capacity_pos
          rw [List.length_cons, List.length_take]
          omega }
    events := dropped.map fun entry => .evicted entry.1 }

def clear (m : Memo) : Memo :=
  { m with
    entries := []
    distinct := List.nodup_nil
    fits := Nat.zero_le m.capacity }

inductive Use where
  | insert (key : String) (value : Float)
  | lookup (key : String)
  | clear
deriving DecidableEq

def afterUse (m : Memo) : Use → Memo
  | .insert key value => (m.insert key value).result
  | .lookup key => (m.lookup key).memo
  | .clear => m.clear

def after (m : Memo) (uses : List Use) : Memo :=
  uses.foldl afterUse m

end Memo

end Reckoner
