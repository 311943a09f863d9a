import Mathlib.Data.List.FinRange
import Reckoner.Proofs.Desk.HitLaw

namespace Reckoner.Desk

open Recency

/-- The texts in another order: each place gets the text of the place that it is sent to. -/
def rearranged (texts : List String) (σ : Equiv.Perm (Fin texts.length)) : List String :=
  List.ofFn fun i => texts[σ i]

def withValue (limit : Nat) (texts : List String) : Finset String :=
  (texts.filter (hasValue limit)).toFinset

def fresh (d : Desk) (texts : List String) : Finset String :=
  withValue d.limit texts \ d.memo.keys.toFinset

structure HasRoom (d : Desk) (texts : List String) : Prop where
  sound : d.Sound
  lasting : d.memo.ttl ≠ 0
  room : (d.memo.keys.toFinset ∪ withValue d.limit texts).card ≤ d.memo.capacity

structure Filled (d : Desk) (texts : List String) (final : Desk) : Prop where
  keys_eq : final.memo.keys.toFinset = d.memo.keys.toFinset ∪ withValue d.limit texts
  misses_eq : final.misses + d.memo.size =
    d.misses + final.memo.size + texts.countP fun text => !hasValue d.limit text

theorem length_rearranged (texts : List String) (σ : Equiv.Perm (Fin texts.length)) :
    (rearranged texts σ).length = texts.length :=
  List.length_ofFn

theorem perm_rearranged (texts : List String) (σ : Equiv.Perm (Fin texts.length)) :
    (rearranged texts σ).Perm texts := by
  have same := σ.ofFn_comp_perm texts.get
  rwa [List.ofFn_get] at same

theorem withValue_cons (limit : Nat) (text : String) (texts : List String) :
    withValue limit (text :: texts) = withValue limit [text] ∪ withValue limit texts := by
  rw [withValue, ← List.singleton_append, List.filter_append, List.toFinset_append]
  rfl

theorem withValue_perm {limit : Nat} {texts others : List String} (perm : texts.Perm others) :
    withValue limit texts = withValue limit others :=
  List.toFinset_eq_of_perm _ _ (perm.filter _)

theorem size_eq_card (m : Memo) : m.size = m.keys.toFinset.card := by
  rw [List.toFinset_card_of_nodup m.nodup_keys, Memo.length_keys]

/-- A key stored where there is room for it drives out no other. -/
theorem keys_insert_of_room {m : Memo} {key : String}
    (room : (insert key m.keys.toFinset).card ≤ m.capacity) (value : Float) :
    (m.insert key value).result.keys.toFinset = insert key m.keys.toFinset := by
  have front : (key :: m.keys.filter (· ≠ key)).toFinset = insert key m.keys.toFinset := by
    ext other
    by_cases same : other = key <;> simp [same]
  have few : (key :: m.keys.filter (· ≠ key)).length ≤ m.capacity := by
    have apart := m.distinct_front key value
    rw [List.map_cons, Memo.keys_without] at apart
    rw [← List.toFinset_card_of_nodup apart, front]
    exact room
  rw [List.length_cons] at few
  rw [Memo.keys_insert, List.take_of_length_le (by omega), front]

namespace HasRoom

variable {d : Desk} {text : String} {texts : List String}

theorem noted_of_refused (room : HasRoom d [text]) (refused : hasValue d.limit text = false) :
    Filled d [text] (d.noted text) := by
  rw [room.sound.noted_of_refused refused]
  refine ⟨?_, ?_⟩
  · simp [withValue, refused]
  · simp only [List.countP_singleton, refused]
    show d.misses + 1 + _ = d.misses + _ + 1
    omega

theorem noted_of_valued (room : HasRoom d [text]) (valued : hasValue d.limit text = true) :
    Filled d [text] (d.noted text) := by
  obtain ⟨value, stored⟩ := memo_noted_of_valued valued
  have single : d.memo.keys.toFinset ∪ withValue d.limit [text] =
      insert text d.memo.keys.toFinset := by
    simp [withValue, valued, Finset.union_comm]
  have fits := room.room
  rw [single] at fits
  have keys : (d.noted text).memo.keys.toFinset = insert text d.memo.keys.toFinset := by
    rw [stored, keys_insert_of_room fits]
  refine ⟨keys.trans single.symm, ?_⟩
  rw [size_eq_card (d.noted text).memo, size_eq_card d.memo, keys]
  -- a text that is held is recalled; any other one is computed and takes a place
  by_cases held : text ∈ d.memo.keys
  · have recalls : d.Recalls text := ⟨room.lasting, held⟩
    rw [Finset.insert_eq_of_mem (List.mem_toFinset.mpr held)]
    simp [Desk.noted, recalls, valued]
  · have forgets : ¬ d.Recalls text := fun recalls => held recalls.2
    rw [Finset.card_insert_of_notMem fun member => held (List.mem_toFinset.mp member)]
    simp only [Desk.noted, if_neg forgets, List.countP_singleton, valued]
    show d.misses + 1 + _ = d.misses + (_ + 1) + 0
    omega

theorem noted (room : HasRoom d [text]) : Filled d [text] (d.noted text) := by
  by_cases valued : hasValue d.limit text
  · exact room.noted_of_valued valued
  · exact room.noted_of_refused (Bool.eq_false_iff.mpr valued)

theorem first (room : HasRoom d (text :: texts)) : HasRoom d [text] := by
  refine ⟨room.sound, room.lasting, ?_⟩
  apply (Finset.card_le_card _).trans room.room
  rw [withValue_cons d.limit text texts]
  exact Finset.union_subset_union_right Finset.subset_union_left

theorem others (room : HasRoom d (text :: texts)) : HasRoom (d.noted text) texts := by
  have filled := room.first.noted
  refine ⟨room.sound.noted text, ?_, ?_⟩
  · rw [ttl_noted]
    exact room.lasting
  · rw [filled.keys_eq, capacity_noted]
    show (_ ∪ withValue d.limit texts).card ≤ _
    rw [Finset.union_assoc, ← withValue_cons]
    exact room.room

theorem perm {others : List String} (room : HasRoom d texts) (perm : texts.Perm others) :
    HasRoom d others :=
  ⟨room.sound, room.lasting, withValue_perm perm ▸ room.room⟩

theorem foldl_noted (room : HasRoom d texts) : Filled d texts (texts.foldl Desk.noted d) := by
  induction texts generalizing d with
  | nil => exact ⟨(Finset.union_empty _).symm, rfl⟩
  | cons text texts ih =>
    have first := room.first.noted
    have others := ih room.others
    refine ⟨?_, ?_⟩
    · rw [withValue_cons, ← Finset.union_assoc, ← first.keys_eq]
      exact others.keys_eq
    · have before := first.misses_eq
      have after := others.misses_eq
      rw [List.countP_singleton] at before
      change _ = _ + texts.countP (fun text => !hasValue d.limit text) at after
      rw [List.countP_cons, List.foldl_cons]
      omega

end HasRoom

/-- What a batch makes of a desk that has room for it does not depend on its order. -/
theorem Filled.perm {d final other : Desk} {texts others : List String}
    (filled : Filled d texts final) (otherFilled : Filled d others other)
    (perm : others.Perm texts) :
    other.misses = final.misses ∧ other.memo.size = final.memo.size ∧
      ∀ key, key ∈ other.memo.keys ↔ key ∈ final.memo.keys := by
  have keys : other.memo.keys.toFinset = final.memo.keys.toFinset := by
    rw [otherFilled.keys_eq, withValue_perm perm, filled.keys_eq]
  have size : other.memo.size = final.memo.size := by
    rw [size_eq_card other.memo, keys, ← size_eq_card final.memo]
  refine ⟨?_, size, ?_⟩
  · have misses := filled.misses_eq
    have otherMisses := otherFilled.misses_eq
    rw [perm.countP_eq, size] at otherMisses
    omega
  · intro key
    rw [← List.mem_toFinset, keys, List.mem_toFinset]

/-- A desk in use has room for the values of a batch if the memo has room for those it lacks. -/
theorem Follows.hasRoom {c limit : Nat} {trace : List String} {d : Desk}
    (follows : Follows c limit trace d) {texts : List String}
    (room : d.memo.size + (d.fresh texts).card ≤ c) : HasRoom d texts := by
  refine ⟨follows.sound, follows.lasting, ?_⟩
  rw [Finset.union_comm, ← Finset.card_sdiff_add_card, ← size_eq_card d.memo,
    follows.capacity_eq, Nat.add_comm]
  exact room

/-- The answers to a batch in another order are the same answers in that order. With a time to live
and room in the memo for the values it lacks, the counts and the keys held in the end are the same
too. -/
theorem answerAll_permuted (s : Settings) (orders : List Order) (texts : List String)
    (σ : Equiv.Perm (Fin texts.length)) :
    let desk := ((ofSettings s).run orders).desk
    let straight := desk.answerAll texts
    let permuted := desk.answerAll (rearranged texts σ)
    straight.results.length = texts.length ∧ permuted.results.length = texts.length ∧
      (∀ i, permuted.results[i.val]? = straight.results[(σ i).val]?) ∧
      (s.ttl ≠ 0 → desk.memo.size + (desk.fresh texts).card ≤ s.capacity.val.toNat →
        permuted.desk.hits = straight.desk.hits ∧
          permuted.desk.misses = straight.desk.misses ∧
          permuted.desk.memo.size = straight.desk.memo.size ∧
          ∀ key, key ∈ permuted.desk.memo.keys ↔ key ∈ straight.desk.memo.keys) := by
  intro desk straight permuted
  have sound : desk.Sound := (Sound.ofSettings s).run orders
  obtain ⟨results, after⟩ := sound.answerAll_eq texts
  obtain ⟨otherResults, otherAfter⟩ := sound.answerAll_eq (rearranged texts σ)
  refine ⟨?_, ?_, ?_, ?_⟩
  · rw [results, List.length_map]
  · rw [otherResults, List.length_map, length_rearranged]
  · intro i
    rw [results, otherResults]
    simp [rearranged]
  · intro lasting room
    have perm := perm_rearranged texts σ
    have hasRoom : HasRoom desk texts := (Follows.run s lasting orders).hasRoom room
    have filled := hasRoom.foldl_noted
    have otherFilled := (hasRoom.perm perm.symm).foldl_noted
    rw [← after] at filled
    rw [← otherAfter] at otherFilled
    obtain ⟨misses, size, keys⟩ := filled.perm otherFilled perm
    have counted := counts_foldl_noted desk texts
    have otherCounted := counts_foldl_noted desk (rearranged texts σ)
    rw [← after] at counted
    rw [← otherAfter, length_rearranged] at otherCounted
    refine ⟨?_, misses, size, keys⟩
    show (desk.answerAll _).desk.hits = (desk.answerAll texts).desk.hits
    change (desk.answerAll _).desk.misses = (desk.answerAll texts).desk.misses at misses
    omega

/-- A held text and one that is not change places; a refusal and a repetition stay where they
are. -/
theorem answerAll_swapped :
    let s : Settings := { capacity := ⟨2, by decide⟩ }
    let desk := ((ofSettings s).run [.answer "1"]).desk
    let straight := desk.answerAll ["1", "(", "2", "2"]
    let swapped := desk.answerAll ["2", "(", "1", "2"]
    (s.ttl ≠ 0 ∧ desk.memo.size + (desk.fresh ["1", "(", "2", "2"]).card ≤ 2) ∧
      swapped.results[0]? = straight.results[2]? ∧ swapped.desk.hits = straight.desk.hits ∧
      swapped.desk.misses = straight.desk.misses := by
  intro s desk straight swapped
  have lasting : s.ttl ≠ 0 := by decide
  have room : desk.memo.size + (desk.fresh ["1", "(", "2", "2"]).card ≤ 2 := by decide +kernel
  obtain ⟨_, _, results, same⟩ :=
    answerAll_permuted s [.answer "1"] ["1", "(", "2", "2"] (Equiv.swap 0 2)
  have order : rearranged ["1", "(", "2", "2"] (Equiv.swap 0 2) = ["2", "(", "1", "2"] := by
    decide +kernel
  have first := results 0
  obtain ⟨hits, misses, _⟩ := same lasting room
  rw [order] at first hits misses
  exact ⟨⟨lasting, room⟩, first, hits, misses⟩

end Reckoner.Desk
