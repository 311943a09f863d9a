import Reckoner.Desk.Basic
import Reckoner.Journal
import Reckoner.Text.Basic

namespace Reckoner

inductive Request where
  | nothing
  | history
  | stats
  | evaluate (text : String)
deriving DecidableEq

/-- White space around a command does not count; a text to evaluate is the line as it stands. -/
def Request.ofLine (line : String) : Request :=
  if line.isEmpty then .nothing
  else
    let command := String.ofList (Text.trimBlank line.toList)
    if command = ":history" then .history
    else if command = ":stats" then .stats
    else .evaluate line

inductive Reply where
  | answer (outcome : Outcome)
  | record (r : Record)
  | stats (hits misses cached : Nat)
deriving DecidableEq

def Reply.line : Reply → String
  | .answer (.success value) => s!"= {Number.text value}"
  | .answer (.failure message) => s!"error: {message}"
  | .record r => r.line
  | .stats hits misses cached => s!"hits: {hits}, misses: {misses}, cached: {cached}"

structure Session where
  desk : Desk
  journal : Journal := {}

structure Session.Step where
  session : Session
  replies : List Reply

inductive Ending where
  | complete
  | undecodable
  /-- The capacity is larger than any that room can be reserved for. -/
  | noRoom
deriving DecidableEq, Repr

def Ending.exitCode : Ending → UInt8
  | .complete => 0
  | .undecodable => 1
  | .noRoom => 101

structure Transcript where
  replies : List Reply
  ending : Ending

namespace Session

/-- The session that begins with the settings, if room can be reserved for its memo. -/
def ofSettings? (s : Settings) : Option Session :=
  if s.capacity.val.toNat ≤ Memo.largestCapacity then some { desk := .ofSettings s } else none

def feed (s : Session) (time : Nat) (line : String) : Step :=
  match Request.ofLine line with
  | .nothing => ⟨s, []⟩
  | .history => ⟨s, s.journal.records.toList.map .record⟩
  | .stats => ⟨s, [.stats s.desk.hits s.desk.misses s.desk.memo.size]⟩
  | .evaluate text =>
    let answer := s.desk.answer text
    { session := ⟨answer.desk, s.journal.enter time text answer.result⟩
      replies := [.answer (.ofResult answer.result)] }

def feedBytes? (s : Session) (time : Nat) (bytes : List UInt8) : Option Step :=
  (String.fromUTF8? ⟨bytes.toArray⟩).map (s.feed time)

/-- Takes lines of bytes up to the first that is not UTF-8. The clock gives the time of each line
by its number. -/
def feedAll (s : Session) (clock : Nat → Nat) (number : Nat) : List (List UInt8) → Transcript
  | [] => ⟨[], .complete⟩
  | line :: lines =>
    match s.feedBytes? (clock number) line with
    | none => ⟨[], .undecodable⟩
    | some step =>
      let others := step.session.feedAll clock (number + 1) lines
      ⟨step.replies ++ others.replies, others.ending⟩

end Session

def Transcript.ofInput (lookup : String → Option String) (clock : Nat → Nat)
    (input : List UInt8) : Transcript :=
  match Session.ofSettings? (Settings.ofVariables lookup).result with
  | none => ⟨[], .noRoom⟩
  | some session => session.feedAll clock 0 (Text.lines input)

end Reckoner
