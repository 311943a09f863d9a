import Reckoner.Event

namespace Reckoner

structure Settings where
  capacity : PositiveSize := ⟨1000, by decide⟩
  /-- The time to live of a value in seconds. -/
  ttl : UInt64 := 3600
  maxDepth : UInt64 := 256
deriving DecidableEq

namespace Settings

def capacityVariable : String := "CALCULUS_CACHE_CAPACITY"
def ttlVariable : String := "CALCULUS_CACHE_TTL_SECS"
def maxDepthVariable : String := "CALCULUS_MAX_DEPTH"

/-- What a variable says, with white space at its ends ignored. An unreadable text is reported and
counts as no text. -/
def readVariable {α : Type} (name : String) (read : List Char → Except SizeFault α)
    (raw? : Option String) : Traced (Option α) :=
  match raw? with
  | none => ⟨none, []⟩
  | some raw =>
    match read (Text.trimBlank raw.toList) with
    | .ok x => ⟨some x, []⟩
    | .error fault => ⟨none, [.ignored name raw fault]⟩

/-- The settings that three variables give, each by itself; one without a readable text keeps its
default. -/
def ofVariables (lookup : String → Option String) : Traced Settings :=
  let capacity := readVariable capacityVariable Size.readPositive (lookup capacityVariable)
  let ttl := readVariable ttlVariable Size.read (lookup ttlVariable)
  let maxDepth := readVariable maxDepthVariable Size.readPositive (lookup maxDepthVariable)
  let default : Settings := {}
  { result :=
      { capacity := capacity.result.getD default.capacity
        ttl := ttl.result.getD default.ttl
        maxDepth := (maxDepth.result.map Subtype.val).getD default.maxDepth }
    events := capacity.events ++ ttl.events ++ maxDepth.events }

end Settings

end Reckoner
