import Mathlib.Data.List.Nodup
import Reckoner.Proofs.Memo.Contents

namespace Reckoner.Memo

/-- Where a list has no more than `d` entries that a part of it lacks, the first `n` of the part are
among its first `n + d`. -/
theorem sublist_take_add {α : Type} {part whole : List α} (sub : part.Sublist whole) (n d : Nat)
    (lacks : whole.length ≤ part.length + d) :
    (part.take n).Sublist (whole.take (n + d)) := by
  induction sub generalizing n d with
  | slnil => simp
  | cons a sub ih =>
    -- one of the `d` is used up here
    have shorter := sub.length_le
    simp only [List.length_cons] at lacks
    obtain ⟨e, rfl⟩ : ∃ e, d = e + 1 := ⟨d - 1, by omega⟩
    rw [← Nat.add_assoc, List.take_succ_cons]
    exact (ih n e (by omega)).cons a
  | cons_cons a sub ih =>
    simp only [List.length_cons] at lacks
    cases n with
    | zero => simp
    | succ n =>
      rw [Nat.succ_add, List.take_succ_cons, List.take_succ_cons]
      exact (ih n d (by omega)).cons_cons a

/-- A filter takes no more out of a part of a list than out of the list. -/
theorem length_filter_add_le {α : Type} {part whole : List α} (sub : part.Sublist whole)
    (p : α → Bool) :
    (whole.filter p).length + part.length ≤ whole.length + (part.filter p).length := by
  have taken := sub.countP_le (p := fun a => !p a)
  have parts (l : List α) : l.length = (l.filter p).length + l.countP fun a => !p a := by
    have split := List.length_eq_countP_add_countP p (l := l)
    simpa [List.countP_eq_length_filter] using split
  have ofWhole := parts whole
  have ofPart := parts part
  omega

/-- The first memo holds a part of what the second holds, in the same order; it lacks no more
entries than the second has more room for. -/
structure Within (small large : Memo) : Prop where
  ttl_eq : small.ttl = large.ttl
  room : small.capacity ≤ large.capacity
  sublist : small.entries.Sublist large.entries
  lacks : large.size + small.capacity ≤ small.size + large.capacity

namespace Within

variable {small large : Memo}

theorem ofEmpty (c c' ttl : Nat) (room : 0 < c) (le : c ≤ c') :
    Within (empty c ttl room) (empty c' ttl (Nat.lt_of_lt_of_le room le)) := by
  refine ⟨rfl, le, List.Sublist.refl _, ?_⟩
  show 0 + c ≤ 0 + c'
  omega

theorem held (within : Within small large) {key : String} (held : key ∈ small.keys) :
    key ∈ large.keys :=
  (within.sublist.map Prod.fst).subset held

theorem without (within : Within small large) (key : String) :
    (small.without key).Sublist (large.without key) :=
  within.sublist.filter _

theorem lacks_without (within : Within small large) (key : String) :
    (large.without key).length + small.capacity ≤
      (small.without key).length + large.capacity := by
  have taken := length_filter_add_le within.sublist fun entry => entry.1 ≠ key
  have before := within.lacks
  show (large.entries.filter _).length + _ ≤ (small.entries.filter _).length + _
  unfold size at before
  omega

theorem insert (within : Within small large) (key : String) (value : Float) :
    Within (small.insert key value).result (large.insert key value).result := by
  have positive := small.capacity_pos
  have room := within.room
  have lacks := within.lacks_without key
  refine ⟨within.ttl_eq, room, ?_, ?_⟩
  · have more : large.capacity - 1 = small.capacity - 1 + (large.capacity - small.capacity) := by
      omega
    rw [entries_insert, entries_insert, more]
    apply List.Sublist.cons_cons
    apply sublist_take_add (within.without key)
    omega
  · rw [size, size, entries_insert, entries_insert, capacity_insert, capacity_insert]
    simp only [List.length_cons, List.length_take]
    omega

theorem clear (within : Within small large) : Within small.clear large.clear := by
  refine ⟨within.ttl_eq, within.room, List.Sublist.refl _, ?_⟩
  have room := within.room
  show 0 + small.capacity ≤ 0 + large.capacity
  omega

/-- A key that both hold has the same value in both. -/
theorem value_eq (within : Within small large) {key : String} {value other : Float}
    (inSmall : (key, value) ∈ small.entries) (inLarge : (key, other) ∈ large.entries) :
    value = other := by
  have both := within.sublist.subset inSmall
  exact congrArg Prod.snd (List.inj_on_of_nodup_map large.distinct both inLarge rfl)

theorem lookup_stale (within : Within small large) (stale : large.ttl = 0) (key : String) :
    Within (small.lookup key).memo (large.lookup key).memo := by
  rw [memo_lookup_of_stale stale, memo_lookup_of_stale (within.ttl_eq.trans stale)]
  exact ⟨within.ttl_eq, within.room, within.without key, within.lacks_without key⟩

theorem lookup_fresh (within : Within small large) (lasting : large.ttl ≠ 0) (key : String) :
    Within (small.lookup key).memo (large.lookup key).memo := by
  have smallLasting : small.ttl ≠ 0 := fun stale => lasting (within.ttl_eq.symm.trans stale)
  by_cases inLarge : key ∈ large.keys
  · obtain ⟨value, member, looked⟩ := lookup_of_fresh lasting inLarge
    by_cases inSmall : key ∈ small.keys
    · obtain ⟨other, otherMember, otherLooked⟩ := lookup_of_fresh smallLasting inSmall
      have same := within.value_eq otherMember member
      subst other
      have lacks := within.lacks_without key
      rw [looked, otherLooked]
      refine ⟨within.ttl_eq, within.room, (within.without key).cons_cons _, ?_⟩
      simp only [size, promote, List.length_cons]
      omega
    · -- only the larger memo moves the key, past entries that the smaller one lacks or keeps
      have sub := within.without key
      have shorter : (large.without key).length < large.size := length_without_lt member
      have lacks := within.lacks
      rw [without_of_absent inSmall] at sub
      rw [looked, lookup_of_absent inSmall]
      refine ⟨within.ttl_eq, within.room, sub.cons _, ?_⟩
      simp only [size, promote, List.length_cons] at *
      omega
  · have inSmall : key ∉ small.keys := fun held => inLarge (within.held held)
    rw [lookup_of_absent inLarge, lookup_of_absent inSmall]
    exact within

theorem afterUse (within : Within small large) (use : Use) :
    Within (small.afterUse use) (large.afterUse use) := by
  cases use with
  | insert key value => exact within.insert key value
  | clear => exact within.clear
  | lookup key =>
    by_cases stale : large.ttl = 0
    · exact within.lookup_stale stale key
    · exact within.lookup_fresh stale key

theorem after (within : Within small large) (uses : List Use) :
    Within (small.after uses) (large.after uses) := by
  induction uses generalizing small large with
  | nil => exact within
  | cons use uses ih => exact ih (within.afterUse use)

theorem found (within : Within small large) {key : String} {value : Float}
    (found : (small.lookup key).found = some value) : (large.lookup key).found = some value := by
  obtain ⟨smallLasting, inSmall⟩ := fresh_of_found found
  have lasting : large.ttl ≠ 0 := fun stale => smallLasting (within.ttl_eq.trans stale)
  have inLarge := within.sublist.subset inSmall
  obtain ⟨actual, member, looked⟩ := lookup_of_fresh lasting (keys_of_mem inLarge)
  rw [looked, within.value_eq inSmall member]

end Within

/-- After the same uses, what the memo of smaller capacity holds stands in the larger one too, with
the same values and in the same order. What the smaller one finds the larger one finds. -/
theorem after_sublist_of_capacity_le {c c' : Nat} (ttl : Nat) (room : 0 < c) (le : c ≤ c')
    (uses : List Use) :
    let small := (empty c ttl room).after uses
    let large := (empty c' ttl (Nat.lt_of_lt_of_le room le)).after uses
    small.entries.Sublist large.entries ∧
      (∀ key value, (small.lookup key).found = some value →
        (large.lookup key).found = some value) ∧
      small.size ≤ large.size := by
  intro small large
  have within : Within small large := (Within.ofEmpty c c' ttl room le).after uses
  exact ⟨within.sublist, fun _ _ => within.found, within.sublist.length_le⟩

/-- The larger memo moves a key that the smaller one has lost, and both still find the other. -/
theorem after_sublist_one_two :
    let uses : List Use := [.insert "a" 1, .insert "b" 2, .lookup "a"]
    let small := (empty 1 60 (by decide)).after uses
    let large := (empty 2 60 (by decide)).after uses
    (0 < 1 ∧ 1 ≤ 2) ∧ small.entries = [("b", 2)] ∧ large.entries = [("a", 1), ("b", 2)] ∧
      small.entries.Sublist large.entries ∧
      (small.lookup "b").found = some 2 ∧ (large.lookup "b").found = some 2 := by
  intro uses small large
  have room : 0 < 1 ∧ 1 ≤ 2 := by decide
  obtain ⟨sub, found, _⟩ := after_sublist_of_capacity_le 60 room.1 room.2 uses
  have present : (small.lookup "b").found = some 2 := by decide +kernel
  refine ⟨room, ?_, ?_, sub, present, found "b" 2 present⟩
  · decide +kernel
  · decide +kernel

end Reckoner.Memo
