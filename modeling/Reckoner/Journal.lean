import Reckoner.Number.Shortest
import Reckoner.Refusal

namespace Reckoner

inductive Outcome where
  | success (value : Float)
  | failure (message : String)
deriving BEq, DecidableEq

def Outcome.ofResult : Except Refusal Float → Outcome
  | .ok value => .success value
  | .error refusal => .failure refusal.message

def Outcome.isSuccess : Outcome → Bool
  | .success _ => true
  | .failure _ => false

/-- The computed equality compares values as numbers: a record of an undefined value differs from
itself. -/
structure Record where
  query : String
  /-- Nanoseconds after the epoch. -/
  time : Nat
  outcome : Outcome
deriving BEq, DecidableEq

namespace Record

def seconds (r : Record) : Nat :=
  r.time / 1000000000

def text (r : Record) : String :=
  match r.outcome with
  | .success value => s!"{r.query} = {Number.text value}"
  | .failure message => s!"{r.query} -> error: {message}"

def line (r : Record) : String :=
  s!"[{r.seconds}] {r.text}"

end Record

structure Journal where
  records : Array Record := #[]

namespace Journal

def size (j : Journal) : Nat :=
  j.records.size

def isEmpty (j : Journal) : Bool :=
  j.records.isEmpty

def push (j : Journal) (r : Record) : Journal :=
  ⟨j.records.push r⟩

def enter (j : Journal) (time : Nat) (query : String) (result : Except Refusal Float) : Journal :=
  j.push ⟨query, time, .ofResult result⟩

end Journal

end Reckoner
