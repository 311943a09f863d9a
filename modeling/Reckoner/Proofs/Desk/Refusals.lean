import Reckoner.Proofs.Desk.HitLaw

namespace Reckoner.Desk

/-- What shows of a step of a run: the order, the answers to it, how many of them counted as hits
and how many as misses, and how many values are held after it. -/
structure Step where
  order : Order
  results : List (Except Refusal Float)
  hits : Nat
  misses : Nat
  held : Nat

def Step.refused (step : Step) : Bool :=
  step.results.any fun result => !result.isOk

def step (d : Desk) (order : Order) : Step :=
  let after := d.perform order
  { order
    results := after.results
    hits := after.desk.hits - d.hits
    misses := after.desk.misses - d.misses
    held := after.desk.memo.size }

def steps (d : Desk) : List Order → List Step
  | [] => []
  | order :: orders => d.step order :: (d.perform order).desk.steps orders

theorem flatMap_results_steps (d : Desk) (orders : List Order) :
    (d.steps orders).flatMap Step.results = (d.run orders).results := by
  induction orders generalizing d with
  | nil => rfl
  | cons order orders ih =>
    rw [steps, List.flatMap_cons, ih]
    rfl

theorem length_texts_singly {order single : Order} (member : single ∈ order.singly) :
    single.texts.length ≤ 1 := by
  cases order with
  | answerAll texts =>
    obtain ⟨text, _, rfl⟩ := List.mem_map.mp member
    exact Nat.le_refl 1
  | answer text =>
    rw [List.mem_singleton.mp member]
    exact Nat.le_refl 1
  | clear | stats =>
    rw [List.mem_singleton.mp member]
    exact Nat.zero_le 1

theorem Alike.trans {c d e : Desk} (first : Alike c d) (second : Alike d e) : Alike c e := by
  obtain ⟨_, rfl⟩ := first
  obtain ⟨misses, rfl⟩ := second
  exact ⟨misses, rfl⟩

theorem Alike.sound {d e : Desk} (alike : Alike d e) (sound : d.Sound) : e.Sound := by
  obtain ⟨misses, rfl⟩ := alike
  exact sound

theorem Alike.foldl_noted {d e : Desk} (alike : Alike d e) (texts : List String) :
    Alike (texts.foldl Desk.noted d) (texts.foldl Desk.noted e) := by
  induction texts generalizing d e with
  | nil => exact alike
  | cons text texts ih => exact ih (alike.noted text)

theorem Alike.performed {d e : Desk} (alike : Alike d e) (order : Order) :
    Alike (d.performed order) (e.performed order) := by
  cases order with
  | clear =>
    obtain ⟨misses, rfl⟩ := alike
    exact ⟨misses, rfl⟩
  | answer | answerAll | stats => exact alike.foldl_noted _

/-- How many misses came before cannot be told from a step. -/
theorem Alike.step_eq {d e : Desk} (alike : Alike d e) (sound : d.Sound) (order : Order) :
    e.step order = d.step order := by
  obtain ⟨results, after⟩ := sound.perform_eq order
  obtain ⟨otherResults, otherAfter⟩ := (alike.sound sound).perform_eq order
  have counted := counts_performed d order
  have otherCounted := counts_performed e order
  obtain ⟨more, same⟩ := alike.performed order
  obtain ⟨misses, rfl⟩ := alike
  rw [same] at otherCounted
  dsimp only at otherCounted
  rw [step, step, results, otherResults, after, otherAfter, same]
  dsimp only
  congr 1
  omega

theorem performed_of_mem_texts (d : Desk) {order : Order} {text : String}
    (member : text ∈ order.texts) : d.performed order = order.texts.foldl noted d := by
  cases order with
  | clear => cases member
  | answer | answerAll | stats => rfl

/-- A refused step that answers one text changes nothing but the misses. -/
theorem Sound.alike_of_refused {d : Desk} (sound : d.Sound) {order : Order}
    (single : order.texts.length ≤ 1) (refused : (d.step order).refused = true) :
    Alike (d.perform order).desk d := by
  obtain ⟨results, after⟩ := sound.perform_eq order
  obtain ⟨result, member, failed⟩ := List.any_eq_true.mp refused
  change result ∈ (d.perform order).results at member
  rw [results] at member
  obtain ⟨text, asked, rfl⟩ := List.mem_map.mp member
  have alone : order.texts = [text] := by
    obtain ⟨other, same⟩ := List.length_eq_one_iff.mp
      (Nat.le_antisymm single (List.length_pos_of_mem asked))
    rw [same] at asked
    rw [same, List.mem_singleton.mp asked]
  have noValue : hasValue d.limit text = false := by simpa [hasValue] using failed
  rw [after, performed_of_mem_texts d asked, alone, List.foldl_cons, List.foldl_nil,
    sound.noted_of_refused noValue]
  exact ⟨d.misses, rfl⟩

/-- Whatever the misses before it, a run of what was not refused shows the same steps again. -/
theorem Alike.steps_of_not_refused {d e : Desk} (alike : Alike d e) (sound : d.Sound)
    {orders : List Order} (single : ∀ order ∈ orders, order.texts.length ≤ 1) :
    let others := (d.steps orders).filter fun step => !step.refused
    e.steps (others.map Step.order) = others := by
  induction orders generalizing d e with
  | nil => rfl
  | cons order orders ih =>
    obtain ⟨first, single⟩ := List.forall_mem_cons.mp single
    have after := (sound.perform_eq order).2
    have stillSound : (d.perform order).desk.Sound := after ▸ sound.performed order
    intro others
    by_cases refused : (d.step order).refused
    · have dropped : others =
          ((d.perform order).desk.steps orders).filter fun step => !step.refused := by
        simp [others, steps, refused]
      have alike := (sound.alike_of_refused first refused).trans alike
      rw [dropped]
      exact ih alike stillSound single
    · have kept : others = d.step order ::
          ((d.perform order).desk.steps orders).filter fun step => !step.refused := by
        simp [others, steps, refused]
      have alikeAfter : Alike (d.perform order).desk (e.perform order).desk := by
        rw [after, ((alike.sound sound).perform_eq order).2]
        exact alike.performed order
      rw [kept, List.map_cons]
      show e.step order :: (e.perform order).desk.steps _ = _
      rw [alike.step_eq sound, ih alikeAfter stillSound single]

/-- A refusal counts as a miss and leaves the memo and the hits as they are. A run with its batches
taken apart is the same run, and without its refused steps it shows exactly its other steps. -/
theorem refusal_counts_as_miss (s : Settings) (orders : List Order) :
    let start := ofSettings s
    let desk := (start.run orders).desk
    let steps := start.steps (orders.flatMap Order.singly)
    let others := steps.filter fun step => !step.refused
    (∀ text refusal, (desk.answer text).result = .error refusal →
        (desk.answer text).desk = { desk with misses := desk.misses + 1 }) ∧
      start.run (orders.flatMap Order.singly) = start.run orders ∧
      steps.flatMap Step.results = (start.run orders).results ∧
      start.steps (others.map Step.order) = others := by
  intro start desk steps others
  have sound : start.Sound := .ofSettings s
  have soundDesk : desk.Sound := sound.run orders
  have taken := run_flatMap_singly start orders
  refine ⟨?_, taken, ?_, ?_⟩
  · intro text refusal refused
    obtain ⟨result, after⟩ := soundDesk.answer_eq text
    rw [result] at refused
    rw [after]
    apply soundDesk.noted_of_refused
    simp only [hasValue, refused]
    rfl
  · rw [flatMap_results_steps, taken]
  · have alike : Alike start start := ⟨start.misses, rfl⟩
    apply alike.steps_of_not_refused sound
    intro single member
    obtain ⟨order, _, member⟩ := List.mem_flatMap.mp member
    exact length_texts_singly member

/-- With room for one value that is stale at once, a refusal does not even drop that value. -/
theorem refusal_keeps_stale_value :
    let s : Settings := { capacity := ⟨1, by decide⟩, ttl := 0 }
    let desk := ((ofSettings s).run [.answerAll ["(", "1"], .answer "2)"]).desk
    (desk.answer "2)").result = .error (.malformed (.trailing ")")) ∧
      desk.memo.entries = [("1", 1)] ∧
      (desk.answer "2)").desk = { desk with misses := desk.misses + 1 } := by
  intro s desk
  have refused : (desk.answer "2)").result = .error (.malformed (.trailing ")")) := by
    decide +kernel
  obtain ⟨unchanged, _⟩ := refusal_counts_as_miss s [.answerAll ["(", "1"], .answer "2)"]
  exact ⟨refused, by decide +kernel, unchanged "2)" _ refused⟩

end Reckoner.Desk
