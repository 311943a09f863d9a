import Reckoner.Session
import Std.Time.DateTime.Timestamp

namespace Reckoner

def wallClock : IO Nat := do
  return (← Std.Time.Timestamp.now).toNanosecondsSinceUnixEpoch.toInt.toNat

/-- Feeds complete lines to a session. There is no session after a line that is not UTF-8. -/
def feedLines (s : Session) : List (List UInt8) → IO (Option Session)
  | [] => return some s
  | line :: lines => do
    match s.feedBytes? (← wallClock) line with
    | none => return none
    | some step =>
      for reply in step.replies do
        IO.println reply.line
      feedLines step.session lines

partial def converse (input : IO.FS.Stream) (s : Session) (pending : List UInt8) :
    IO Ending := do
  let bytes ← input.read 65536
  if bytes.isEmpty then
    return if (← feedLines s (Text.lastLine pending)).isSome then .complete else .undecodable
  let split := Text.splitLines pending bytes.toList
  match ← feedLines s split.lines with
  | none => return .undecodable
  | some s =>
    (← IO.getStdout).flush
    converse input s split.pending

end Reckoner

def main : IO UInt32 := do
  let capacity ← IO.getEnv Reckoner.Settings.capacityVariable
  let ttl ← IO.getEnv Reckoner.Settings.ttlVariable
  let maxDepth ← IO.getEnv Reckoner.Settings.maxDepthVariable
  let lookup (name : String) : Option String :=
    if name = Reckoner.Settings.capacityVariable then capacity
    else if name = Reckoner.Settings.ttlVariable then ttl
    else if name = Reckoner.Settings.maxDepthVariable then maxDepth
    else none
  let settings := Reckoner.Settings.ofVariables lookup
  for event in settings.events do
    IO.eprintln event.line
  let ending ← match Reckoner.Session.ofSettings? settings.result with
    | none => pure Reckoner.Ending.noRoom
    | some session => Reckoner.converse (← IO.getStdin) session []
  return ending.exitCode.toUInt32
