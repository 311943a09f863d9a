import Reckoner.Settings.Size
import Reckoner.Text.Quoted
import Reckoner.Token.Basic

namespace Reckoner

inductive Level where
  | warning
  | debug
  | trace
deriving DecidableEq, Repr

def Level.name : Level → String
  | .warning => "WARN"
  | .debug => "DEBUG"
  | .trace => "TRACE"

inductive Event where
  | scanning (text : String)
  | scanned (tokens : List Token)
  | parsed (tree : Expr)
  /-- A tree of the given depth is about to be evaluated. -/
  | evaluating (depth : Nat)
  /-- A key was found in a memo. -/
  | hit (key : String)
  /-- A key was found in a memo, but stale. -/
  | expired (key : String)
  /-- A key left a memo to make room. -/
  | evicted (key : String)
  | recalled (text : String) (value : Float)
  | ignored (name : String) (raw : String) (fault : SizeFault)
deriving DecidableEq

namespace Event

def level : Event → Level
  | .ignored .. => .warning
  | .hit _ | .expired _ | .evicted _ => .trace
  | .scanning _ | .scanned _ | .parsed _ | .evaluating _ | .recalled .. => .debug

/-- The words of a line that are the same for every event of its kind. -/
def heading : Event → String
  | .scanning _ => "Tokenizing expression: "
  | .scanned _ => "Tokens: ["
  | .parsed _ => "Parsed AST: "
  | .evaluating _ => "Evaluating AST of depth "
  | .hit _ => "Cache hit: "
  | .expired _ => "Cache entry expired: "
  | .evicted _ => "Cache evicted least recently used: "
  | .recalled .. => "Cached result for "
  | .ignored .. => "Ignoring "

def tokenText : Token → String
  | .lexeme kind text =>
    s!"Token \x7b kind: {kind.name}, lexeme: Some({Text.quoted text}) \x7d"
  | .endOfInput => "Token \x7b kind: EndOfInput, lexeme: None \x7d"

def details : Event → String
  | .scanning text => Text.quoted text
  | .scanned tokens => ", ".intercalate (tokens.map tokenText) ++ "]"
  | .parsed tree => tree.display
  | .evaluating depth => toString depth
  | .hit key | .expired key | .evicted key => Text.quoted key
  | .recalled text value => Text.quoted text ++ ": " ++ Number.text value
  | .ignored name raw fault => name ++ "=" ++ Text.quoted raw ++ ": " ++ fault.message

def text (e : Event) : String :=
  e.heading ++ e.details

def line (e : Event) : String :=
  s!"{e.level.name} {e.text}"

def OpensWith (phrase : String) (e : Event) : Prop :=
  phrase.toList <+: e.text.toList

instance (phrase : String) : DecidablePred (OpensWith phrase) :=
  fun e => inferInstanceAs (Decidable (phrase.toList <+: e.text.toList))

/-- The phrase that tells the lines of a desk from one another. -/
def phrase? : Event → Option String
  | .scanning _ => some "Tokenizing expression"
  | .evaluating _ => some "Evaluating AST of depth"
  | .hit _ => some "Cache hit"
  | .expired _ => some "Cache entry expired"
  | .evicted _ => some "Cache evicted"
  | .recalled .. => some "Cached result"
  | .scanned _ | .parsed _ | .ignored .. => none

def phrases : List String :=
  ["Tokenizing expression", "Evaluating AST of depth", "Cache hit", "Cache entry expired",
    "Cache evicted", "Cached result"]

/-- A heading begins with its own phrase and with no other one, and none ends within a phrase. -/
theorem heading_apart (e : Event) : ∀ phrase ∈ phrases,
    (phrase.toList <+: e.heading.toList ↔ e.phrase? = some phrase) ∧
      (e.heading.toList <+: phrase.toList → phrase.toList <+: e.heading.toList) := by
  cases e <;> dsimp only [heading, phrase?] <;> decide +kernel

/-- What a line says of its event in particular does not count. -/
theorem opensWith_iff {phrase : String} (member : phrase ∈ phrases) (e : Event) :
    e.OpensWith phrase ↔ e.phrase? = some phrase := by
  obtain ⟨same, longer⟩ := e.heading_apart phrase member
  have begins : e.heading.toList <+: e.text.toList := by
    rw [text, String.toList_append]
    exact List.prefix_append _ _
  rw [← same]
  constructor
  · intro opens
    exact (List.prefix_or_prefix_of_prefix opens begins).elim id longer
  · exact fun inside => inside.trans begins

end Event

def linesWith (phrase : String) (events : List Event) : Nat :=
  events.countP fun e => decide (e.OpensWith phrase)

theorem linesWith_append (phrase : String) (es fs : List Event) :
    linesWith phrase (es ++ fs) = linesWith phrase es + linesWith phrase fs :=
  List.countP_append

theorem linesWith_eq_count {phrase : String} (member : phrase ∈ Event.phrases)
    (events : List Event) :
    linesWith phrase events = (events.filterMap Event.phrase?).count phrase := by
  induction events with
  | nil => rfl
  | cons e events ih =>
    have first := Event.opensWith_iff member e
    rw [linesWith, List.countP_cons, ← linesWith, ih]
    cases told : e.phrase? with
    | none => simp [first, told]
    | some other => simp [first, told, List.count_cons]

structure Traced (α : Type) where
  result : α
  events : List Event

end Reckoner
