import Reckoner.Desk.Run
import Reckoner.Proofs.Memo.Contents

namespace Reckoner

def Memo.learn (m : Memo) (text : String) : Except Refusal Float → Memo
  | .ok value => (m.insert text value).result
  | .error _ => m

namespace Desk

/-- The values of the memo are those of their texts. -/
def Sound (d : Desk) : Prop :=
  ∀ entry ∈ d.memo.entries, evaluate d.limit entry.1 = .ok entry.2

def Recalls (d : Desk) (text : String) : Prop :=
  d.memo.ttl ≠ 0 ∧ text ∈ d.memo.keys

instance (d : Desk) (text : String) : Decidable (d.Recalls text) :=
  inferInstanceAs (Decidable (_ ∧ _))

def noted (d : Desk) (text : String) : Desk where
  memo := d.memo.learn text (evaluate d.limit text)
  limit := d.limit
  hits := if d.Recalls text then d.hits + 1 else d.hits
  misses := if d.Recalls text then d.misses else d.misses + 1

theorem Sound.of_empty {d : Desk} (empty : d.memo.entries = []) : d.Sound := by
  intro entry member
  rw [empty] at member
  contradiction

theorem Sound.ofSettings (s : Settings) : (ofSettings s).Sound :=
  .of_empty rfl

theorem Sound.evaluate_of_held {d : Desk} (sound : d.Sound) {text : String}
    (held : text ∈ d.memo.keys) : ∃ value, evaluate d.limit text = .ok value := by
  obtain ⟨entry, member, same⟩ := List.mem_map.mp held
  exact ⟨entry.2, same ▸ sound entry member⟩

theorem answer_of_found (d : Desk) (text : String) {value : Float}
    (found : (d.memo.lookup text).found = some value) :
    (d.answer text).result = .ok value ∧
      (d.answer text).desk = { d with memo := (d.memo.lookup text).memo, hits := d.hits + 1 } := by
  simp only [answer, found, and_self]

theorem answer_of_not_found (d : Desk) (text : String)
    (missing : (d.memo.lookup text).found = none) :
    (d.answer text).result = evaluate d.limit text ∧
      (d.answer text).desk =
        { d with
          memo := (d.memo.lookup text).memo.learn text (evaluate d.limit text)
          misses := d.misses + 1 } := by
  simp only [answer, missing, evaluate]
  cases (evaluateTraced d.limit text).result <;> exact ⟨rfl, rfl⟩

/-- However an answer comes about, it is the value of the text, and the memo has learnt it. -/
theorem Sound.answer_eq {d : Desk} (sound : d.Sound) (text : String) :
    (d.answer text).result = evaluate d.limit text ∧ (d.answer text).desk = d.noted text := by
  by_cases held : text ∈ d.memo.keys
  · by_cases stale : d.memo.ttl = 0
    · -- the value is dropped, computed again and stored again
      obtain ⟨value, evaluated⟩ := sound.evaluate_of_held held
      have looked := Memo.lookup_of_stale stale held
      have forgets : ¬ d.Recalls text := fun recalls => recalls.1 stale
      obtain ⟨result, after⟩ := answer_of_not_found d text (by rw [looked])
      refine ⟨result, ?_⟩
      rw [after, looked, noted, if_neg forgets, if_neg forgets, evaluated]
      simp only [Memo.learn, Memo.insert_forget]
    · obtain ⟨value, member, looked⟩ := Memo.lookup_of_fresh stale held
      have evaluated := sound _ member
      have recalls : d.Recalls text := ⟨stale, held⟩
      obtain ⟨result, after⟩ := answer_of_found d text (by rw [looked])
      refine ⟨result.trans evaluated.symm, ?_⟩
      rw [after, looked, noted, if_pos recalls, if_pos recalls, evaluated]
      simp only [Memo.learn, Memo.promote_eq_insert]
  · have looked := Memo.lookup_of_absent held
    have forgets : ¬ d.Recalls text := fun recalls => held recalls.2
    obtain ⟨result, after⟩ := answer_of_not_found d text (by rw [looked])
    refine ⟨result, ?_⟩
    rw [after, looked, noted, if_neg forgets, if_neg forgets]

theorem Sound.noted {d : Desk} (sound : d.Sound) (text : String) : (d.noted text).Sound := by
  intro entry
  cases evaluated : evaluate d.limit text with
  | error refusal =>
    simp only [Desk.noted, evaluated, Memo.learn]
    exact sound entry
  | ok value =>
    simp only [Desk.noted, evaluated, Memo.learn]
    intro member
    rcases Memo.mem_entries_insert member with rfl | member
    · exact evaluated
    · exact sound entry member

theorem Sound.answer {d : Desk} (sound : d.Sound) (text : String) :
    (d.answer text).desk.Sound := by
  rw [(sound.answer_eq text).2]
  exact sound.noted text

theorem Sound.foldl_noted {d : Desk} (sound : d.Sound) (texts : List String) :
    (texts.foldl Desk.noted d).Sound := by
  induction texts generalizing d with
  | nil => exact sound
  | cons text texts ih => exact ih (sound.noted text)

theorem limit_foldl_noted (d : Desk) (texts : List String) :
    (texts.foldl Desk.noted d).limit = d.limit := by
  induction texts generalizing d with
  | nil => rfl
  | cons text texts ih => exact ih (d.noted text)

theorem Sound.answerAll_eq {d : Desk} (sound : d.Sound) (texts : List String) :
    (d.answerAll texts).results = texts.map (evaluate d.limit) ∧
      (d.answerAll texts).desk = texts.foldl Desk.noted d := by
  induction texts generalizing d with
  | nil => exact ⟨rfl, rfl⟩
  | cons text texts ih =>
    obtain ⟨result, after⟩ := sound.answer_eq text
    obtain ⟨results, final⟩ := ih (sound.noted text)
    refine ⟨?_, ?_⟩
    · simp only [Desk.answerAll, result, after, results, List.map_cons]
      rfl
    · simp only [Desk.answerAll, after, final, List.foldl_cons]

def performed (d : Desk) : Order → Desk
  | .clear => d.clear
  | order => order.texts.foldl Desk.noted d

theorem limit_performed (d : Desk) (order : Order) : (d.performed order).limit = d.limit := by
  cases order with
  | clear => rfl
  | answer | answerAll | stats => exact limit_foldl_noted d _

theorem Sound.performed {d : Desk} (sound : d.Sound) (order : Order) :
    (d.performed order).Sound := by
  cases order with
  | clear => exact .of_empty rfl
  | answer | answerAll | stats => exact sound.foldl_noted _

theorem Sound.perform_eq {d : Desk} (sound : d.Sound) (order : Order) :
    (d.perform order).results = order.texts.map (evaluate d.limit) ∧
      (d.perform order).desk = d.performed order := by
  cases order with
  | clear | stats => exact ⟨rfl, rfl⟩
  | answer text => exact sound.answerAll_eq [text]
  | answerAll texts => exact sound.answerAll_eq texts

theorem Sound.perform {d : Desk} (sound : d.Sound) (order : Order) :
    (d.perform order).desk.Sound := by
  rw [(sound.perform_eq order).2]
  exact sound.performed order

/-- What a run answers and where it ends: one induction for all that follows. -/
theorem Sound.run_eq {d : Desk} (sound : d.Sound) (orders : List Order) :
    (d.run orders).results = (orders.flatMap Order.texts).map (evaluate d.limit) ∧
      (d.run orders).desk = orders.foldl Desk.performed d := by
  induction orders generalizing d with
  | nil => exact ⟨rfl, rfl⟩
  | cons order orders ih =>
    obtain ⟨first, after⟩ := sound.perform_eq order
    obtain ⟨others, final⟩ := ih (sound.performed order)
    rw [limit_performed] at others
    refine ⟨?_, ?_⟩
    · simp only [run, first, after, others, List.flatMap_cons, List.map_append]
    · simp only [run, after, final, List.foldl_cons]

theorem Sound.foldl_performed {d : Desk} (sound : d.Sound) (orders : List Order) :
    (orders.foldl Desk.performed d).Sound := by
  induction orders generalizing d with
  | nil => exact sound
  | cons order orders ih => exact ih (sound.performed order)

theorem Sound.run {d : Desk} (sound : d.Sound) (orders : List Order) :
    (d.run orders).desk.Sound := by
  rw [(sound.run_eq orders).2]
  exact sound.foldl_performed orders

theorem limit_foldl_performed (d : Desk) (orders : List Order) :
    (orders.foldl Desk.performed d).limit = d.limit := by
  induction orders generalizing d with
  | nil => rfl
  | cons order orders ih => exact (ih (d.performed order)).trans (limit_performed d order)

/-- Every answer of a run is the value of its text, computed without a memory, and so is every value
that the memo holds after it. -/
theorem run_transparent (s : Settings) (orders : List Order) :
    ((ofSettings s).run orders).results =
        (orders.flatMap Order.texts).map (evaluate s.maxDepth.toNat) ∧
      ∀ entry ∈ ((ofSettings s).run orders).desk.memo.entries,
        evaluate s.maxDepth.toNat entry.1 = .ok entry.2 := by
  have start := Sound.ofSettings s
  obtain ⟨results, final⟩ := start.run_eq orders
  refine ⟨results, ?_⟩
  intro entry member
  rw [final] at member
  have agreed := start.foldl_performed orders entry member
  rw [limit_foldl_performed] at agreed
  exact agreed

/-- A value that is computed, recalled within a batch and still held is that of its text. -/
theorem run_transparent_half :
    ((ofSettings {}).run [.answer "1/2", .answerAll ["(", "1/2"], .stats]).desk.memo.entries =
        [("1/2", 0.5)] ∧
      evaluate 256 "1/2" = .ok 0.5 := by
  have held : ((ofSettings {}).run
      [.answer "1/2", .answerAll ["(", "1/2"], .stats]).desk.memo.entries = [("1/2", 0.5)] := by
    decide +kernel
  obtain ⟨_, agrees⟩ := run_transparent {} [.answer "1/2", .answerAll ["(", "1/2"], .stats]
  refine ⟨held, agrees ("1/2", 0.5) ?_⟩
  rw [held]
  exact List.mem_singleton_self _

end Desk

end Reckoner
