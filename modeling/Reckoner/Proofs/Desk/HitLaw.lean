import Reckoner.Proofs.Desk.Transparency
import Reckoner.Proofs.Memo.Retention

namespace Reckoner

def hasValue (limit : Nat) (text : String) : Bool :=
  (evaluate limit text).isOk

namespace Desk

open Recency

def Order.singly : Order → List Order
  | .answerAll texts => texts.map .answer
  | order => [order]

/-- The texts asked for after the last clearing, the latest first. -/
def asked (orders : List Order) : List String :=
  (orders.reverse.takeWhile (· ≠ .clear)).flatMap fun order => order.texts.reverse

/-- The text was answered with a value after the last clearing, and since it was last asked for
fewer than `c` other texts were. -/
def StillHeld (c limit : Nat) (past : List Order) (text : String) : Prop :=
  text ∈ (asked past).filter (hasValue limit) ∧
    (((asked past).takeWhile (· ≠ text)).filter (hasValue limit)).toFinset.card < c

instance (c limit : Nat) (past : List Order) (text : String) :
    Decidable (StillHeld c limit past text) :=
  inferInstanceAs (Decidable (_ ∧ _))

def Order.valued (limit : Nat) : Order → Order
  | .answer text => .answerAll ([text].filter (hasValue limit))
  | .answerAll texts => .answerAll (texts.filter (hasValue limit))
  | order => order

/-- The desk has been asked for the texts of a trace since its memo was last empty, the latest
first. -/
structure Follows (c limit : Nat) (trace : List String) (d : Desk) : Prop where
  sound : d.Sound
  capacity_eq : d.memo.capacity = c
  limit_eq : d.limit = limit
  lasting : d.memo.ttl ≠ 0
  keys_eq : d.memo.keys = recent c (trace.filter (hasValue limit))

theorem capacity_noted (d : Desk) (text : String) :
    (d.noted text).memo.capacity = d.memo.capacity := by
  cases evaluated : evaluate d.limit text <;> simp [Desk.noted, evaluated, Memo.learn]

theorem ttl_noted (d : Desk) (text : String) : (d.noted text).memo.ttl = d.memo.ttl := by
  cases evaluated : evaluate d.limit text <;> simp [Desk.noted, evaluated, Memo.learn]

theorem memo_noted_of_valued {d : Desk} {text : String} (valued : hasValue d.limit text = true) :
    ∃ value, (d.noted text).memo = (d.memo.insert text value).result := by
  cases evaluated : evaluate d.limit text with
  | error refusal =>
    simp only [hasValue, evaluated] at valued
    contradiction
  | ok value =>
    refine ⟨value, ?_⟩
    simp only [Desk.noted, evaluated, Memo.learn]

theorem memo_noted_of_refused {d : Desk} {text : String}
    (refused : hasValue d.limit text = false) : (d.noted text).memo = d.memo := by
  cases evaluated : evaluate d.limit text with
  | error refusal => simp only [Desk.noted, evaluated, Memo.learn]
  | ok value =>
    simp only [hasValue, evaluated] at refused
    contradiction

/-- Whatever the time to live, the memo keeps to the texts with a value that came last. -/
theorem keys_noted {d : Desk} {trace : List String}
    (keys : d.memo.keys = recent d.memo.capacity (trace.filter (hasValue d.limit)))
    (text : String) :
    (d.noted text).memo.keys =
      recent d.memo.capacity ((text :: trace).filter (hasValue d.limit)) := by
  by_cases valued : hasValue d.limit text
  · obtain ⟨value, stored⟩ := memo_noted_of_valued valued
    rw [stored, List.filter_cons_of_pos valued]
    exact Memo.keys_insert_of_recent keys text value
  · rw [memo_noted_of_refused (Bool.eq_false_iff.mpr valued), keys, List.filter_cons_of_neg valued]

theorem Follows.noted {c limit : Nat} {trace : List String} {d : Desk}
    (follows : Follows c limit trace d) (text : String) :
    Follows c limit (text :: trace) (d.noted text) := by
  obtain ⟨sound, rfl, rfl, lasting, keys⟩ := follows
  have stillLasting : (d.noted text).memo.ttl ≠ 0 := by rwa [ttl_noted]
  exact ⟨sound.noted text, capacity_noted d text, rfl, stillLasting, keys_noted keys text⟩

theorem Follows.foldl_noted {c limit : Nat} {trace : List String} {d : Desk}
    (follows : Follows c limit trace d) (texts : List String) :
    Follows c limit (texts.reverse ++ trace) (texts.foldl Desk.noted d) := by
  induction texts generalizing trace d with
  | nil => exact follows
  | cons text texts ih =>
    rw [List.reverse_cons, List.append_assoc]
    exact ih (follows.noted text)

theorem asked_snoc (past : List Order) (order : Order) :
    asked (past ++ [order]) =
      if order = .clear then [] else order.texts.reverse ++ asked past := by
  by_cases cleared : order = .clear
  · simp [asked, cleared]
  · simp [asked, cleared]

theorem Follows.performed {c limit : Nat} {past : List Order} {d : Desk}
    (follows : Follows c limit (asked past) d) (order : Order) :
    Follows c limit (asked (past ++ [order])) (d.performed order) := by
  rw [asked_snoc]
  cases order with
  | clear =>
    exact ⟨follows.sound.performed .clear, follows.capacity_eq, follows.limit_eq,
      follows.lasting, (recent_nil c).symm⟩
  | answer | answerAll | stats => exact follows.foldl_noted _

theorem Follows.ofSettings (s : Settings) (lasting : s.ttl ≠ 0) :
    Follows s.capacity.val.toNat s.maxDepth.toNat (asked []) (ofSettings s) := by
  refine ⟨Sound.ofSettings s, rfl, rfl, ?_, (recent_nil _).symm⟩
  intro zero
  exact lasting (UInt64.toNat_inj.mp zero)

theorem Follows.foldl_performed {c limit : Nat} {past : List Order} {d : Desk}
    (follows : Follows c limit (asked past) d) (orders : List Order) :
    Follows c limit (asked (past ++ orders)) (orders.foldl Desk.performed d) := by
  induction orders generalizing past d with
  | nil => rwa [List.append_nil]
  | cons order orders ih =>
    rw [← List.singleton_append, ← List.append_assoc]
    exact ih (follows.performed order)

theorem Follows.run (s : Settings) (lasting : s.ttl ≠ 0) (orders : List Order) :
    Follows s.capacity.val.toNat s.maxDepth.toNat (asked orders)
      ((Desk.ofSettings s).run orders).desk := by
  rw [((Sound.ofSettings s).run_eq orders).2]
  exact (Follows.ofSettings s lasting).foldl_performed orders

theorem Follows.recalls_iff {c limit : Nat} {past : List Order} {d : Desk}
    (follows : Follows c limit (asked past) d) (text : String) :
    d.Recalls text ↔ StillHeld c limit past text := by
  rw [Recalls, follows.keys_eq, mem_recent_iff, StillHeld, and_iff_right follows.lasting]
  apply and_congr_right
  intro held
  rw [takeWhile_filter_of_held (List.mem_filter.mp held).2]

theorem counts_noted (d : Desk) (text : String) :
    (d.noted text).hits + (d.noted text).misses = d.hits + d.misses + 1 := by
  by_cases recalls : d.Recalls text <;> simp only [noted, recalls, ↓reduceIte] <;> omega

theorem counts_foldl_noted (d : Desk) (texts : List String) :
    (texts.foldl noted d).hits + (texts.foldl noted d).misses =
      d.hits + d.misses + texts.length := by
  induction texts generalizing d with
  | nil => rfl
  | cons text texts ih =>
    rw [List.foldl_cons, ih, counts_noted, List.length_cons]
    omega

theorem counts_performed (d : Desk) (order : Order) :
    (d.performed order).hits + (d.performed order).misses =
      d.hits + d.misses + order.texts.length := by
  cases order with
  | clear => rfl
  | answer | answerAll | stats => exact counts_foldl_noted d _

theorem counts_foldl_performed (d : Desk) (orders : List Order) :
    (orders.foldl performed d).hits + (orders.foldl performed d).misses =
      d.hits + d.misses + (orders.flatMap Order.texts).length := by
  induction orders generalizing d with
  | nil => rfl
  | cons order orders ih =>
    rw [List.foldl_cons, ih, counts_performed, List.flatMap_cons, List.length_append]
    omega

theorem run_map_answer (d : Desk) (texts : List String) :
    d.run (texts.map .answer) = d.answerAll texts := by
  induction texts generalizing d with
  | nil => rfl
  | cons text texts ih =>
    simp only [List.map_cons, run, perform, answerAll, ih, List.append_nil, List.singleton_append]

theorem run_singly (d : Desk) (order : Order) : d.run order.singly = d.perform order := by
  cases order with
  | answerAll texts => exact run_map_answer d texts
  | answer | clear | stats => simp only [Order.singly, run, List.append_nil]

theorem run_flatMap_singly (d : Desk) (orders : List Order) :
    d.run (orders.flatMap Order.singly) = d.run orders := by
  induction orders generalizing d with
  | nil => rfl
  | cons order orders ih => rw [List.flatMap_cons, run_append, run_singly, ih, run]

theorem Sound.hasValue_of_held {d : Desk} (sound : d.Sound) {text : String}
    (held : text ∈ d.memo.keys) : hasValue d.limit text = true := by
  obtain ⟨value, same⟩ := sound.evaluate_of_held held
  rw [hasValue, same]
  rfl

/-- A text without a value leaves a trace in the misses only. -/
theorem Sound.noted_of_refused {d : Desk} (sound : d.Sound) {text : String}
    (refused : hasValue d.limit text = false) :
    d.noted text = { d with misses := d.misses + 1 } := by
  have forgets : ¬ d.Recalls text := by
    intro recalls
    have valued := sound.hasValue_of_held recalls.2
    rw [refused] at valued
    contradiction
  rw [Desk.noted, if_neg forgets, if_neg forgets]
  exact congrArg (fun memo => { d with memo := memo, misses := d.misses + 1 })
    (memo_noted_of_refused refused)

def Alike (d e : Desk) : Prop :=
  ∃ misses, e = { d with misses := misses }

theorem Alike.noted {d e : Desk} (alike : Alike d e) (text : String) :
    Alike (d.noted text) (e.noted text) := by
  obtain ⟨misses, rfl⟩ := alike
  exact ⟨_, rfl⟩

theorem Alike.foldl_noted_filter {d e : Desk} (alike : Alike d e) (sound : d.Sound)
    (texts : List String) :
    Alike (texts.foldl Desk.noted d)
      ((texts.filter (hasValue d.limit)).foldl Desk.noted e) := by
  induction texts generalizing d e with
  | nil => exact alike
  | cons text texts ih =>
    have others {e : Desk} (alike : Alike (d.noted text) e) := ih alike (sound.noted text)
    by_cases valued : hasValue d.limit text
    · rw [List.filter_cons_of_pos valued]
      exact others (alike.noted text)
    · rw [List.filter_cons_of_neg valued]
      apply others
      rw [sound.noted_of_refused (Bool.eq_false_iff.mpr valued)]
      obtain ⟨misses, rfl⟩ := alike
      exact ⟨misses, rfl⟩

theorem Alike.performed_valued {d e : Desk} (alike : Alike d e) (sound : d.Sound)
    (order : Order) :
    Alike (d.performed order) (e.performed (order.valued d.limit)) := by
  cases order with
  | clear =>
    obtain ⟨misses, rfl⟩ := alike
    exact ⟨misses, rfl⟩
  | answer | answerAll | stats => exact alike.foldl_noted_filter sound _

theorem Alike.foldl_performed_valued {d e : Desk} (alike : Alike d e) (sound : d.Sound)
    (orders : List Order) :
    Alike (orders.foldl Desk.performed d)
      ((orders.map (Order.valued d.limit)).foldl Desk.performed e) := by
  induction orders generalizing d e with
  | nil => exact alike
  | cons order orders ih =>
    have others := ih (alike.performed_valued sound order) (sound.performed order)
    rwa [limit_performed] at others

/-- With a time to live, an answer is recalled exactly when the text was answered with a value after
the last clearing and fewer other texts than the memo has room for were since; every other answer
counts as a miss. Every text asked for is counted, the memo fills up to its capacity, and texts
without a value make no difference to what is recalled. -/
theorem hits_iff_still_held (s : Settings) (lasting : s.ttl ≠ 0) (orders : List Order) :
    let capacity := s.capacity.val.toNat
    let limit := s.maxDepth.toNat
    let desk := ((ofSettings s).run orders).desk
    let valued := ((ofSettings s).run (orders.map (Order.valued limit))).desk
    (ofSettings s).run orders = (ofSettings s).run (orders.flatMap Order.singly) ∧
      (∀ text, ((desk.answer text).desk.hits, (desk.answer text).desk.misses) =
        if StillHeld capacity limit orders text then (desk.hits + 1, desk.misses)
        else (desk.hits, desk.misses + 1)) ∧
      desk.hits + desk.misses = (orders.flatMap Order.texts).length ∧
      desk.memo.size = min capacity ((asked orders).filter (hasValue limit)).toFinset.card ∧
      valued.memo = desk.memo ∧ valued.hits = desk.hits := by
  intro capacity limit desk valued
  have start := Sound.ofSettings s
  have final : desk = orders.foldl performed (ofSettings s) := (start.run_eq orders).2
  have pruned : valued = (orders.map (Order.valued limit)).foldl performed (ofSettings s) :=
    (start.run_eq _).2
  have follows : Follows capacity limit (asked orders) desk := by
    rw [final]
    exact (Follows.ofSettings s lasting).foldl_performed orders
  refine ⟨(run_flatMap_singly _ _).symm, ?_, ?_, ?_, ?_⟩
  · intro text
    rw [(follows.sound.answer_eq text).2]
    by_cases held : StillHeld capacity limit orders text
    · have recalls := (follows.recalls_iff text).mpr held
      rw [if_pos held, noted, if_pos recalls, if_pos recalls]
    · have forgets := fun recalls => held ((follows.recalls_iff text).mp recalls)
      rw [if_neg held, noted, if_neg forgets, if_neg forgets]
  · rw [final, counts_foldl_performed]
    exact Nat.zero_add _
  · rw [← Memo.length_keys, follows.keys_eq, length_recent]
  · have alike : Alike desk valued := by
      rw [final, pruned]
      exact Alike.foldl_performed_valued ⟨_, rfl⟩ start orders
    obtain ⟨misses, same⟩ := alike
    rw [same]
    exact ⟨rfl, rfl⟩

/-- With room for one value, a refusal does not drive out the last of two, which drove out the
first. -/
theorem hits_with_room_for_one :
    let s : Settings := { capacity := ⟨1, by decide⟩ }
    let desk := ((ofSettings s).run [.answerAll ["1", "2"], .answer "("]).desk
    s.ttl ≠ 0 ∧
      ((desk.answer "2").desk.hits, (desk.answer "2").desk.misses) =
        (desk.hits + 1, desk.misses) ∧
      ((desk.answer "1").desk.hits, (desk.answer "1").desk.misses) =
        (desk.hits, desk.misses + 1) := by
  intro s desk
  have lasting : s.ttl ≠ 0 := by decide
  obtain ⟨_, answers, _⟩ := hits_iff_still_held s lasting [.answerAll ["1", "2"], .answer "("]
  have held : StillHeld 1 256 [.answerAll ["1", "2"], .answer "("] "2" := by decide +kernel
  have gone : ¬ StillHeld 1 256 [.answerAll ["1", "2"], .answer "("] "1" := by decide +kernel
  refine ⟨lasting, ?_, ?_⟩
  · exact (answers "2").trans (if_pos held)
  · exact (answers "1").trans (if_neg gone)

end Desk

end Reckoner
