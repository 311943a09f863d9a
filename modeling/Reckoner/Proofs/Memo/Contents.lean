import Mathlib.Data.List.Basic
import Reckoner.Memo.Basic

namespace Reckoner.Memo

variable {m : Memo} {key : String}

theorem length_keys (m : Memo) : m.keys.length = m.size :=
  List.length_map _

theorem keys_of_mem {entry : String × Float} (member : entry ∈ m.entries) : entry.1 ∈ m.keys :=
  List.mem_map_of_mem member

theorem without_of_absent (absent : key ∉ m.keys) : m.without key = m.entries := by
  apply List.filter_eq_self.mpr
  intro entry member
  exact decide_eq_true fun same => absent (same ▸ keys_of_mem member)

theorem forget_of_absent (absent : key ∉ m.keys) : m.forget key = m := by
  simp only [forget, without_of_absent absent]

theorem lookup_of_absent (absent : key ∉ m.keys) : m.lookup key = ⟨none, m, []⟩ := by
  unfold lookup
  split
  · rfl
  · next found => exact absurd (keys_of_mem (mem_of_lookup found)) absent

theorem lookup_of_held (held : key ∈ m.keys) :
    ∃ value, ∃ member : (key, value) ∈ m.entries, m.lookup key =
      if m.ttl = 0 then ⟨none, m.forget key, [.expired key]⟩
      else ⟨some value, m.promote (key, value) member, [.hit key]⟩ := by
  unfold lookup
  split
  · next missing =>
    obtain ⟨entry, member, same⟩ := List.mem_map.mp held
    have different := List.lookup_eq_none_iff.mp missing entry member
    simp [same] at different
  · next value found => exact ⟨value, mem_of_lookup found, rfl⟩

theorem lookup_of_stale (stale : m.ttl = 0) (held : key ∈ m.keys) :
    m.lookup key = ⟨none, m.forget key, [.expired key]⟩ := by
  obtain ⟨_, _, looked⟩ := lookup_of_held held
  rw [looked, if_pos stale]

theorem memo_lookup_of_stale (stale : m.ttl = 0) (key : String) :
    (m.lookup key).memo = m.forget key := by
  by_cases held : key ∈ m.keys
  · rw [lookup_of_stale stale held]
  · rw [lookup_of_absent held, forget_of_absent held]

theorem lookup_of_fresh (lasting : m.ttl ≠ 0) (held : key ∈ m.keys) :
    ∃ value, ∃ member : (key, value) ∈ m.entries,
      m.lookup key = ⟨some value, m.promote (key, value) member, [.hit key]⟩ := by
  obtain ⟨value, member, looked⟩ := lookup_of_held held
  refine ⟨value, member, ?_⟩
  rw [looked, if_neg lasting]

theorem fresh_of_found {value : Float} (found : (m.lookup key).found = some value) :
    m.ttl ≠ 0 ∧ (key, value) ∈ m.entries := by
  by_cases held : key ∈ m.keys
  · by_cases stale : m.ttl = 0
    · rw [lookup_of_stale stale held] at found
      cases found
    · obtain ⟨actual, member, looked⟩ := lookup_of_fresh stale held
      rw [looked] at found
      cases found
      exact ⟨stale, member⟩
  · rw [lookup_of_absent held] at found
    cases found

@[simp] theorem capacity_insert (m : Memo) (key : String) (value : Float) :
    (m.insert key value).result.capacity = m.capacity := rfl

@[simp] theorem ttl_insert (m : Memo) (key : String) (value : Float) :
    (m.insert key value).result.ttl = m.ttl := rfl

theorem entries_insert (m : Memo) (key : String) (value : Float) :
    (m.insert key value).result.entries =
      (key, value) :: (m.without key).take (m.capacity - 1) := rfl

theorem keys_insert (m : Memo) (key : String) (value : Float) :
    (m.insert key value).result.keys =
      key :: (m.keys.filter (· ≠ key)).take (m.capacity - 1) := by
  rw [keys, entries_insert, List.map_cons, List.map_take, keys_without]

theorem size_insert (m : Memo) (key : String) (value : Float) :
    (m.insert key value).result.size = min (m.capacity - 1) (m.without key).length + 1 := by
  rw [size, entries_insert, List.length_cons, List.length_take]

theorem mem_entries_insert {value : Float} {entry : String × Float}
    (member : entry ∈ (m.insert key value).result.entries) :
    entry = (key, value) ∨ entry ∈ m.entries := by
  rw [entries_insert] at member
  rcases List.mem_cons.mp member with same | member
  · exact .inl same
  · exact .inr (List.mem_of_mem_filter (List.mem_of_mem_take member))

/-- Moving an entry to the front is inserting it again: nothing has to leave. -/
theorem promote_eq_insert {value : Float} (member : (key, value) ∈ m.entries) :
    m.promote (key, value) member = (m.insert key value).result := by
  have shorter : (m.without key).length < m.entries.length := length_without_lt member
  have fits := m.fits
  have room : (m.without key).length ≤ m.capacity - 1 := by omega
  simp only [promote, insert, List.take_of_length_le room]

theorem insert_forget (m : Memo) (key : String) (value : Float) :
    (m.forget key).insert key value = m.insert key value := by
  have twice : (m.forget key).without key = m.without key := by
    simp only [forget, without, List.filter_filter, Bool.and_self]
  simp only [insert, twice]
  rfl

theorem length_without (m : Memo) (key : String) :
    (m.without key).length + (if key ∈ m.keys then 1 else 0) = m.size := by
  have same : (m.without key).length = (m.keys.erase key).length := by
    rw [m.nodup_keys.erase_eq_filter, ← List.length_map Prod.fst, keys_without]
    congr 1
    apply List.filter_congr
    intro other _
    by_cases h : other = key <;> simp [h]
  rw [same, List.length_erase, ← length_keys]
  by_cases held : key ∈ m.keys
  · have positive := List.length_pos_of_mem held
    simp only [held, ↓reduceIte]
    omega
  · simp only [held, ↓reduceIte, Nat.add_zero]

end Reckoner.Memo
