import Reckoner.Expr.Reading
import Reckoner.Memo.Basic
import Reckoner.Settings.Basic
import Reckoner.Token.Scan

namespace Reckoner

/-- How deep a tree may be where no limit is given. -/
def defaultDepth : Nat := 256

def evaluateTraced (limit : Nat) (text : String) : Traced (Except Refusal Float) :=
  match Token.scan text with
  | .error fault => ⟨.error (.foreign fault), [.scanning text]⟩
  | .ok tokens =>
    match Expr.ofTokens limit tokens with
    | .error fault => ⟨.error (.malformed fault), [.scanning text, .scanned tokens]⟩
    | .ok tree =>
      ⟨.ok tree.value,
        [.scanning text, .scanned tokens, .parsed tree, .evaluating tree.depth]⟩

def evaluate (limit : Nat) (text : String) : Except Refusal Float :=
  (evaluateTraced limit text).result

/-- Answers texts and remembers the values. The counts have no bound: a word of 64 bits would hold
them up to the answer number `2 ^ 64`, which no desk lives to give. -/
structure Desk where
  memo : Memo
  limit : Nat
  hits : Nat := 0
  misses : Nat := 0

structure Desk.Answer where
  result : Except Refusal Float
  desk : Desk
  events : List Event

structure Desk.Answers where
  results : List (Except Refusal Float)
  desk : Desk
  events : List Event

namespace Desk

def ofSettings (s : Settings) : Desk where
  memo := .empty s.capacity.val.toNat s.ttl.toNat s.capacity.property
  limit := s.maxDepth.toNat

/-- The value from the memo, or else the value computed afresh, which the memo then holds.
Refusals are not remembered. -/
def answer (d : Desk) (text : String) : Answer :=
  let looked := d.memo.lookup text
  match looked.found with
  | some value =>
    { result := .ok value
      desk := { d with memo := looked.memo, hits := d.hits + 1 }
      events := looked.events ++ [.recalled text value] }
  | none =>
    let evaluated := evaluateTraced d.limit text
    match evaluated.result with
    | .error refusal =>
      { result := .error refusal
        desk := { d with memo := looked.memo, misses := d.misses + 1 }
        events := looked.events ++ evaluated.events }
    | .ok value =>
      let stored := looked.memo.insert text value
      { result := .ok value
        desk := { d with memo := stored.result, misses := d.misses + 1 }
        events := looked.events ++ evaluated.events ++ stored.events }

def answerAll (d : Desk) : List String → Answers
  | [] => ⟨[], d, []⟩
  | text :: texts =>
    let first := d.answer text
    let others := first.desk.answerAll texts
    ⟨first.result :: others.results, others.desk, first.events ++ others.events⟩

def clear (d : Desk) : Desk :=
  { d with memo := d.memo.clear }

end Desk

end Reckoner
