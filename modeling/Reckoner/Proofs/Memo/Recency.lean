import Mathlib.Data.Finset.Card
import Mathlib.Data.List.Dedup

namespace Reckoner.Recency

variable {α : Type} [DecidableEq α]

theorem eraseDups_filter (p : α → Bool) (l : List α) :
    (l.filter p).eraseDups = l.eraseDups.filter p := by
  match l with
  | [] => rfl
  | a :: l =>
    -- the recursion of `eraseDups` is on the list without `a`, not on `l`
    have ih := eraseDups_filter p (l.filter fun b => !b == a)
    by_cases h : p a
    · rw [List.filter_cons_of_pos h, List.eraseDups_cons, List.eraseDups_cons,
        List.filter_cons_of_pos h, ← ih, List.filter_comm]
    · have same : (l.filter fun b => !b == a).filter p = l.filter p := by
        rw [List.filter_filter]
        apply List.filter_congr
        intro b _
        by_cases hb : b = a
        · simp [hb, h]
        · simp [hb]
      rw [List.filter_cons_of_neg h, List.eraseDups_cons, List.filter_cons_of_neg h, ← ih, same]
termination_by l.length
decreasing_by
  exact Nat.lt_succ_of_le (List.length_filter_le _ _)

theorem eraseDups_cons_filter (a : α) (l : List α) :
    (a :: l).eraseDups = a :: l.eraseDups.filter (· ≠ a) := by
  rw [List.eraseDups_cons, eraseDups_filter]
  congr 1
  apply List.filter_congr
  intro b _
  by_cases h : b = a <;> simp [h]

theorem nodup_eraseDups (l : List α) : l.eraseDups.Nodup := by
  induction l with
  | nil => exact List.nodup_nil
  | cons a l ih =>
    rw [eraseDups_cons_filter]
    refine List.nodup_cons.mpr ⟨?_, ih.filter _⟩
    intro member
    exact absurd rfl (of_decide_eq_true (List.mem_filter.mp member).2)

theorem card_toFinset (l : List α) : l.toFinset.card = l.eraseDups.length := by
  have same : l.toFinset = l.eraseDups.toFinset := by
    ext a
    simp [List.mem_eraseDups]
  rw [same, List.toFinset_card_of_nodup (nodup_eraseDups l)]

def recent (c : Nat) (trace : List α) : List α :=
  trace.eraseDups.take c

@[simp] theorem recent_nil (c : Nat) : recent c ([] : List α) = [] :=
  List.take_nil

theorem length_recent (c : Nat) (trace : List α) :
    (recent c trace).length = min c trace.toFinset.card := by
  rw [recent, List.length_take, card_toFinset]

theorem nodup_recent (c : Nat) (trace : List α) : (recent c trace).Nodup :=
  (List.take_sublist _ _).nodup (nodup_eraseDups trace)

/-- An entry that is taken out makes room for one more, and no more are missing. -/
theorem take_filter_take {a : α} {l : List α} (distinct : l.Nodup) (n : Nat) :
    ((l.take (n + 1)).filter (· ≠ a)).take n = (l.filter (· ≠ a)).take n := by
  induction l generalizing n with
  | nil => rfl
  | cons b l ih =>
    obtain ⟨fresh, distinct⟩ := List.nodup_cons.mp distinct
    rw [List.take_succ_cons]
    by_cases h : b = a
    · subst b
      have apart {k : List α} (sub : k ⊆ l) : k.filter (· ≠ a) = k := by
        apply List.filter_eq_self.mpr
        intro x member
        exact decide_eq_true fun same => fresh (sub (same ▸ member))
      rw [List.filter_cons_of_neg (by simp), List.filter_cons_of_neg (by simp),
        apart (List.take_subset _ _), apart (List.Subset.refl _), List.take_take, Nat.min_self]
    · rw [List.filter_cons_of_pos (by simpa using h), List.filter_cons_of_pos (by simpa using h)]
      cases n with
      | zero => rfl
      | succ n => rw [List.take_succ_cons, List.take_succ_cons, ih distinct]

/-- A use puts its entry in front; of the others one fewer has room. -/
theorem recent_cons {c : Nat} (positive : 0 < c) (a : α) (trace : List α) :
    recent c (a :: trace) = a :: ((recent c trace).filter (· ≠ a)).take (c - 1) := by
  obtain ⟨n, rfl⟩ := Nat.exists_eq_succ_of_ne_zero (Nat.ne_of_gt positive)
  rw [recent, eraseDups_cons_filter, List.take_succ_cons, recent, Nat.succ_sub_one,
    take_filter_take (nodup_eraseDups trace)]

omit [DecidableEq α] in
theorem mem_take_append_cons {a : α} {front back : List α} (fresh : a ∉ front) (c : Nat) :
    a ∈ (front ++ a :: back).take c ↔ front.length < c := by
  rw [List.take_append, List.mem_append]
  constructor
  · rintro (member | member)
    · exact absurd (List.mem_of_mem_take member) fresh
    · by_contra full
      rw [Nat.sub_eq_zero_of_le (Nat.le_of_not_lt full), List.take_zero] at member
      exact absurd member List.not_mem_nil
  · intro room
    right
    obtain ⟨n, hn⟩ := Nat.exists_eq_succ_of_ne_zero (Nat.sub_ne_zero_of_lt room)
    rw [hn, List.take_succ_cons]
    exact List.mem_cons_self

/-- What is kept has been used, and fewer than `c` others since its last use. -/
theorem mem_recent_iff (c : Nat) (a : α) (trace : List α) :
    a ∈ recent c trace ↔ a ∈ trace ∧ (trace.takeWhile (· ≠ a)).toFinset.card < c := by
  by_cases member : a ∈ trace
  · -- the trace after and before the last use of `a`
    obtain ⟨later, earlier, split, fresh⟩ := List.eq_append_cons_of_mem member
    have since : trace.takeWhile (· ≠ a) = later := by
      rw [split, List.takeWhile_append_of_pos, List.takeWhile_cons_of_neg (by simp),
        List.append_nil]
      intro b hb
      exact decide_eq_true fun same => fresh (same ▸ hb)
    have distinct : trace.eraseDups =
        later.eraseDups ++ a :: ((earlier.removeAll later).filter fun b => !b == a).eraseDups := by
      rw [split, List.eraseDups_append, ← List.eraseDups_cons, List.removeAll,
        List.filter_cons_of_pos (by simpa using fresh), List.removeAll]
    rw [since, card_toFinset, recent, distinct,
      mem_take_append_cons (fun h => fresh (List.mem_eraseDups.mp h))]
    exact (and_iff_right member).symm
  · constructor
    · intro kept
      exact absurd (List.mem_eraseDups.mp (List.mem_of_mem_take kept)) member
    · intro used
      exact absurd used.1 member

/-- Of the entries, this is the one whose last use lies the longest ago. The trace lists what was
used, the latest first. -/
structure IsOldest (trace entries : List α) (a : α) : Prop where
  mem : a ∈ entries
  used : a ∈ trace
  later : ∀ b ∈ entries, b ≠ a → b ∈ trace.takeWhile (· ≠ a)

theorem takeWhile_filter_of_held {p : α → Bool} {a : α} (held : p a = true) (trace : List α) :
    (trace.filter p).takeWhile (· ≠ a) = (trace.takeWhile (· ≠ a)).filter p := by
  induction trace with
  | nil => rfl
  | cons b trace ih =>
    by_cases same : b = a
    · subst b
      rw [List.filter_cons_of_pos held, List.takeWhile_cons_of_neg (by simp),
        List.takeWhile_cons_of_neg (by simp), List.filter_nil]
    · rw [List.takeWhile_cons_of_pos (by simpa using same)]
      by_cases kept : p b
      · rw [List.filter_cons_of_pos kept, List.takeWhile_cons_of_pos (by simpa using same), ih,
          List.filter_cons_of_pos kept]
      · rw [List.filter_cons_of_neg kept, ih, List.filter_cons_of_neg kept]

theorem mem_takeWhile_of_eraseDups {trace : List α} {a b : α}
    (before : b ∈ trace.eraseDups.takeWhile (· ≠ a)) : b ∈ trace.takeWhile (· ≠ a) := by
  induction trace with
  | nil => exact before
  | cons first trace ih =>
    rw [eraseDups_cons_filter] at before
    by_cases same : first = a
    · rw [List.takeWhile_cons_of_neg (by simpa using same)] at before
      contradiction
    · have kept : decide (a ≠ first) = true := by simpa using Ne.symm same
      rw [List.takeWhile_cons_of_pos (by simpa using same),
        takeWhile_filter_of_held (p := fun x => decide (x ≠ first)) kept] at before
      rw [List.takeWhile_cons_of_pos (by simpa using same)]
      rcases List.mem_cons.mp before with rfl | before
      · exact List.mem_cons_self
      · exact List.mem_cons_of_mem first (ih (List.mem_of_mem_filter before))

theorem isOldest_of_recent {c : Nat} {p : α → Bool} {trace front : List α} {a : α}
    (last : recent c (trace.filter p) = front ++ [a]) : IsOldest trace (front ++ [a]) a := by
  have inside : a ∈ recent c (trace.filter p) := by simp [last]
  obtain ⟨used, kept⟩ :=
    List.mem_filter.mp (List.mem_eraseDups.mp (List.mem_of_mem_take inside))
  have distinct := nodup_recent c (trace.filter p)
  rw [last] at distinct
  refine ⟨by simp, used, ?_⟩
  intro b member different
  have before : b ∈ front := by simpa [different] using member
  have split : (trace.filter p).eraseDups = front ++ a :: (trace.filter p).eraseDups.drop c := by
    rw [List.append_cons, ← last]
    exact (List.take_append_drop c _).symm
  have apart : ∀ x ∈ front, decide (x ≠ a) = true := by
    intro x inFront
    apply decide_eq_true
    rintro rfl
    exact List.disjoint_of_nodup_append distinct inFront (List.mem_singleton_self x)
  have first : b ∈ (trace.filter p).eraseDups.takeWhile (· ≠ a) := by
    rw [split, List.takeWhile_append_of_pos apart]
    exact List.mem_append_left _ before
  have since := mem_takeWhile_of_eraseDups first
  rw [takeWhile_filter_of_held kept] at since
  exact List.mem_of_mem_filter since

end Reckoner.Recency
